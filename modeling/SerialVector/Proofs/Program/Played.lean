/-
What a player learns of a program.

A translation is itself a program, but for vector sizes, which shrink: `inPlayOrder` is the
command whose bytes it writes.  The reader of commands therefore takes a translation apart
as well, and two programs with one translation have the same commands, those aside that
are not played.
-/
import SerialVector.Proofs.Program.Translation

namespace SerialVector

namespace Command

/-- Whether anything of the command is left in the order of play. -/
def isPlayed : Command → Bool
  | repeats _ | endIr _ | endDr _ => false
  | tdoMask _ | sir .. | runTest _ | sdrSize _ | sdrTdo .. | state _ | raw .. => true

/-- The command with its vectors as they are played.  Both halves of a compare are turned
round as one and change places. -/
def inPlayOrder (swap : Bool) : Command → Command
  | tdoMask mask => tdoMask (playOrder swap mask)
  | sir bits value => sir bits (playOrder swap value)
  | sdrTdo tdi tdo =>
    sdrTdo ((playOrder swap (tdi ++ tdo)).take tdi.length)
      ((playOrder swap (tdi ++ tdo)).drop tdi.length)
  | raw opcode operand => raw opcode (playOrder swap operand)
  | runTest clocks => runTest clocks
  | repeats count => repeats count
  | sdrSize bits => sdrSize bits
  | state value => state value
  | endIr value => endIr value
  | endDr value => endDr value

/-! ## Commands that are not played -/

section NotPlayed

variable {c : Command} (h : c.isPlayed = false)
include h

theorem translation_of_not_played (swap : Bool) : c.translation swap = [] := by
  cases c with
  | repeats count => rfl
  | endIr value => rfl
  | endDr value => rfl
  | tdoMask | sir | runTest | sdrSize | sdrTdo | state | raw => cases h

theorem nextSize_of_not_played (size : Nat) : c.nextSize size = size := by
  cases c with
  | sdrSize bits => cases h
  | tdoMask | sir | runTest | repeats | sdrTdo | state | endIr | endDr | raw => rfl

theorem compareBytes_of_not_played : c.compareBytes = 0 := by
  cases c with
  | tdoMask mask => cases h
  | sdrTdo tdi tdo => cases h
  | sir | runTest | repeats | sdrSize | state | endIr | endDr | raw => rfl

end NotPlayed

/-! ## Commands that are -/

theorem opcodeByte_ne_zero {size : Nat} {c : Command} (h : c.WellFormed size) :
    c.opcodeByte ≠ 0 := by
  cases c with
  | raw opcode operand =>
    show opcode ≠ 0
    rcases h.1 with rfl | rfl | rfl <;> decide
  | tdoMask | sir | runTest | repeats | sdrSize | sdrTdo | state | endIr | endDr =>
    simp only [opcodeByte]
    decide

theorem exists_translation_of_played {c : Command} (h : c.isPlayed = true) (swap : Bool) :
    ∃ operands, c.translation swap = c.opcodeByte :: operands := by
  cases c with
  | repeats | endIr | endDr => cases h
  | tdoMask | sir | runTest | sdrSize | sdrTdo | state | raw => exact ⟨_, rfl⟩

@[simp] theorem inPlayOrder_inPlayOrder (swap : Bool) (c : Command) :
    (c.inPlayOrder swap).inPlayOrder swap = c := by
  cases c with
  | sdrTdo tdi tdo =>
    have hlength : ((playOrder swap (tdi ++ tdo)).take tdi.length).length = tdi.length := by
      rw [List.length_take, length_playOrder, List.length_append]
      omega
    simp only [inPlayOrder, List.take_append_drop, hlength, playOrder_playOrder, List.take_left,
      List.drop_left]
  | tdoMask mask => simp only [inPlayOrder, playOrder_playOrder]
  | sir bits value => simp only [inPlayOrder, playOrder_playOrder]
  | raw opcode operand => simp only [inPlayOrder, playOrder_playOrder]
  | runTest | repeats | sdrSize | state | endIr | endDr => rfl

theorem wellFormed_inPlayOrder {size : Nat} {c : Command} (h : c.WellFormed size)
    (swap : Bool) : (c.inPlayOrder swap).WellFormed size := by
  cases c with
  | tdoMask mask => exact ⟨(length_playOrder swap mask).trans h.1, h.2⟩
  | sir bits value => exact (length_playOrder swap value).trans h
  | sdrTdo tdi tdo =>
    obtain ⟨htdi, htdo, hsize⟩ := h
    refine ⟨?_, ?_, hsize⟩
    · rw [List.length_take, length_playOrder, List.length_append]
      omega
    · rw [List.length_drop, length_playOrder, List.length_append]
      omega
  | raw opcode operand => exact ⟨h.1, (length_playOrder swap operand).trans h.2.1, h.2.2⟩
  | runTest | repeats | sdrSize | state | endIr | endDr => exact h

theorem translation_eq_encode {c : Command} (h : c.isPlayed = true)
    (hsize : ∀ bits, c ≠ sdrSize bits) (swap : Bool) :
    c.translation swap = (c.inPlayOrder swap).encode := by
  cases c with
  | sdrSize bits => exact absurd rfl (hsize bits)
  | repeats | endIr | endDr => cases h
  | sdrTdo tdi tdo =>
    show _ = Opcode.sdrTdo.toByte :: (List.take _ _ ++ List.drop _ _)
    rw [List.take_append_drop]
    rfl
  | tdoMask | sir | runTest | state | raw => rfl

theorem exists_of_opcodeByte_sdrSize {size : Nat} {c : Command} (h : c.WellFormed size)
    (hbyte : c.opcodeByte = Opcode.sdrSize.toByte) : ∃ bits, c = sdrSize bits := by
  cases c with
  | sdrSize bits => exact ⟨bits, rfl⟩
  | raw opcode operand =>
    have hopcode : opcode = Opcode.sdrSize.toByte := hbyte
    subst hopcode
    exact absurd h.1 (by decide)
  | tdoMask | sir | runTest | repeats | sdrTdo | state | endIr | endDr =>
    simp only [opcodeByte] at hbyte
    exact absurd hbyte (by decide)

/-- The two bytes of a vector size are all of it. -/
theorem eq_of_sdrSize_translation {bits others : UInt32} {rest more : List UInt8}
    (hbits : bits.toNat < 65536) (hothers : others.toNat < 65536) (swap : Bool)
    (h : (sdrSize bits).translation swap ++ rest =
      (sdrSize others).translation swap ++ more) : bits = others ∧ rest = more := by
  have hrow : BigEndian.encode 2 bits.toNat ++ rest = BigEndian.encode 2 others.toNat ++ more :=
    List.tail_eq_of_cons_eq h
  have hlength : (BigEndian.encode 2 bits.toNat).length =
      (BigEndian.encode 2 others.toNat).length := by
    rw [BigEndian.length_encode, BigEndian.length_encode]
  obtain ⟨hencode, hrest⟩ := List.append_inj hrow hlength
  have hdecode := congrArg BigEndian.decode hencode
  rw [BigEndian.decode_encode_of_lt hbits, BigEndian.decode_encode_of_lt hothers] at hdecode
  exact ⟨UInt32.toNat_inj.mp hdecode, hrest⟩

/-- Under one vector size, what was translated says which command it was and where the
next one begins. -/
theorem eq_of_translation_append {size : Nat} {c d : Command} {rest more : List UInt8}
    (hc : c.WellFormed size) (hd : d.WellFormed size) (hcplayed : c.isPlayed = true)
    (hdplayed : d.isPlayed = true) (swap : Bool)
    (h : c.translation swap ++ rest = d.translation swap ++ more) : c = d ∧ rest = more := by
  obtain ⟨_, hcbyte⟩ := exists_translation_of_played hcplayed swap
  obtain ⟨_, hdbyte⟩ := exists_translation_of_played hdplayed swap
  have hbyte : c.opcodeByte = d.opcodeByte := by
    rw [hcbyte, hdbyte] at h
    exact List.head_eq_of_cons_eq h
  by_cases hsize : c.opcodeByte = Opcode.sdrSize.toByte
  · obtain ⟨bits, rfl⟩ := exists_of_opcodeByte_sdrSize hc hsize
    obtain ⟨others, rfl⟩ := exists_of_opcodeByte_sdrSize hd (hbyte.symm.trans hsize)
    obtain ⟨rfl, hrest⟩ := eq_of_sdrSize_translation hc hd swap h
    exact ⟨rfl, hrest⟩
  · have hcsize : ∀ bits, c ≠ sdrSize bits := by
      rintro bits rfl
      exact hsize rfl
    have hdsize : ∀ bits, d ≠ sdrSize bits := by
      rintro bits rfl
      exact hsize hbyte
    rw [translation_eq_encode hcplayed hcsize, translation_eq_encode hdplayed hdsize] at h
    -- The reader takes the same command from both sides.
    have hread := read_encode 0 rest (wellFormed_inPlayOrder hc swap)
    rw [h, read_encode 0 more (wellFormed_inPlayOrder hd swap)] at hread
    simp only [Except.ok.injEq, Prod.mk.injEq, Option.some.injEq, Cursor.mk.injEq] at hread
    obtain ⟨hcommand, -, hrest⟩ := hread
    have hturned := congrArg (inPlayOrder swap) hcommand
    rw [inPlayOrder_inPlayOrder, inPlayOrder_inPlayOrder] at hturned
    exact ⟨hturned.symm, hrest.symm⟩

end Command

namespace Program

/-- The commands that a player gets to see. -/
def played (commands : List Command) : List Command := commands.filter Command.isPlayed

theorem played_cons_of_played {c : Command} (h : c.isPlayed = true) (commands : List Command) :
    played (c :: commands) = c :: played commands :=
  List.filter_cons_of_pos h

theorem played_cons_of_not_played {c : Command} (h : c.isPlayed = false)
    (commands : List Command) : played (c :: commands) = played commands :=
  List.filter_cons_of_neg (by rw [h]; decide)

theorem played_append (front back : List Command) :
    played (front ++ back) = played front ++ played back :=
  List.filter_append front back

theorem isPlayed_of_mem_played {c : Command} {commands : List Command}
    (h : c ∈ played commands) : c.isPlayed = true :=
  (List.mem_filter.mp h).2

theorem sizeAfter_played (size : Nat) (commands : List Command) :
    sizeAfter size (played commands) = sizeAfter size commands := by
  induction commands generalizing size with
  | nil => rfl
  | cons c commands ih =>
    cases hplayed : c.isPlayed with
    | true =>
      rw [played_cons_of_played hplayed]
      exact ih (c.nextSize size)
    | false =>
      rw [played_cons_of_not_played hplayed, ih]
      show sizeAfter size commands = sizeAfter (c.nextSize size) commands
      rw [Command.nextSize_of_not_played hplayed]

theorem wellFormed_played {size : Nat} {commands : List Command}
    (h : WellFormed size commands) : WellFormed size (played commands) := by
  induction commands generalizing size with
  | nil => exact trivial
  | cons c commands ih =>
    cases hplayed : c.isPlayed with
    | true =>
      rw [played_cons_of_played hplayed]
      exact ⟨h.1, ih h.2⟩
    | false =>
      rw [played_cons_of_not_played hplayed]
      have hrest := ih h.2
      rw [Command.nextSize_of_not_played hplayed] at hrest
      exact hrest

theorem flatMap_translation_played (swap : Bool) (commands : List Command) :
    (played commands).flatMap (Command.translation swap) =
      commands.flatMap (Command.translation swap) := by
  induction commands with
  | nil => rfl
  | cons c commands ih =>
    cases hplayed : c.isPlayed with
    | true => rw [played_cons_of_played hplayed, List.flatMap_cons, List.flatMap_cons, ih]
    | false =>
      rw [played_cons_of_not_played hplayed, List.flatMap_cons, ih,
        Command.translation_of_not_played hplayed, List.nil_append]

theorem translation_played (swap : Bool) (commands : List Command) :
    translation swap (played commands) = translation swap commands := by
  rw [translation, translation, flatMap_translation_played]

theorem foldl_compareBytes_played (most : Nat) (commands : List Command) :
    (played commands).foldl (fun size c => max size c.compareBytes) most =
      commands.foldl (fun size c => max size c.compareBytes) most := by
  induction commands generalizing most with
  | nil => rfl
  | cons c commands ih =>
    cases hplayed : c.isPlayed with
    | true =>
      rw [played_cons_of_played hplayed]
      exact ih (max most c.compareBytes)
    | false =>
      rw [played_cons_of_not_played hplayed, ih, List.foldl_cons,
        Command.compareBytes_of_not_played hplayed, Nat.max_zero]

theorem bufferSize_played (commands : List Command) :
    bufferSize (played commands) = bufferSize commands :=
  foldl_compareBytes_played 0 commands

theorem translation_cons_ne_zero {size : Nat} {c : Command} (h : c.WellFormed size)
    (hplayed : c.isPlayed = true) (swap : Bool) (commands : List Command) :
    translation swap (c :: commands) ≠ [0] := by
  obtain ⟨operands, hoperands⟩ := Command.exists_translation_of_played hplayed swap
  rw [translation, List.flatMap_cons, hoperands]
  intro hzero
  exact Command.opcodeByte_ne_zero h (List.head_eq_of_cons_eq hzero)

/-- The induction is on both rows at once, which keeps their vector sizes the same. -/
theorem eq_of_translation_eq {size : Nat} {commands others : List Command}
    (h : WellFormed size commands) (hothers : WellFormed size others)
    (hplayed : ∀ c ∈ commands, c.isPlayed = true)
    (hothersPlayed : ∀ c ∈ others, c.isPlayed = true) (swap : Bool)
    (heq : translation swap commands = translation swap others) : commands = others := by
  induction commands generalizing size others with
  | nil =>
    cases others with
    | nil => rfl
    | cons d others =>
      have hd := hothersPlayed d List.mem_cons_self
      exact absurd heq.symm (translation_cons_ne_zero hothers.1 hd swap others)
  | cons c commands ih =>
    have hc := hplayed c List.mem_cons_self
    cases others with
    | nil => exact absurd heq (translation_cons_ne_zero h.1 hc swap commands)
    | cons d others =>
      have hd := hothersPlayed d List.mem_cons_self
      have hrow : c.translation swap ++ translation swap commands =
          d.translation swap ++ translation swap others := by
        simpa only [translation, List.flatMap_cons, List.append_assoc] using heq
      obtain ⟨rfl, hrest⟩ := Command.eq_of_translation_append h.1 hothers.1 hc hd swap hrow
      rw [ih h.2 hothers.2 (fun e he => hplayed e (List.mem_cons_of_mem _ he))
        (fun e he => hothersPlayed e (List.mem_cons_of_mem _ he)) hrest]

/-- A translation says all of a program but the commands that are not played. -/
theorem translation_eq_iff {size : Nat} {commands others : List Command}
    (h : WellFormed size commands) (hothers : WellFormed size others) (swap : Bool) :
    translation swap commands = translation swap others ↔ played commands = played others := by
  constructor
  · intro heq
    rw [← translation_played swap commands, ← translation_played swap others] at heq
    exact eq_of_translation_eq (wellFormed_played h) (wellFormed_played hothers)
      (fun _ => isPlayed_of_mem_played) (fun _ => isPlayed_of_mem_played) swap heq
  · intro heq
    rw [← translation_played swap commands, heq, translation_played]

theorem wellFormed_append {size : Nat} {front back : List Command} :
    WellFormed size (front ++ back) ↔
      WellFormed size front ∧ WellFormed (sizeAfter size front) back := by
  induction front generalizing size with
  | nil => exact ⟨fun h => ⟨trivial, h⟩, fun h => h.2⟩
  | cons c front ih =>
    rw [List.cons_append]
    show c.WellFormed size ∧ _ ↔ (c.WellFormed size ∧ _) ∧ _
    rw [ih, and_assoc]
    rfl

/-- Commands that are not played may stand anywhere where each of them may. -/
theorem wellFormed_insert {size : Nat} {front dropped back : List Command}
    (h : played dropped = []) :
    WellFormed size (front ++ dropped ++ back) ↔
      WellFormed (sizeAfter size front) dropped ∧ WellFormed size (front ++ back) := by
  have hsize : sizeAfter (sizeAfter size front) dropped = sizeAfter size front := by
    rw [← sizeAfter_played, h]
    rfl
  rw [List.append_assoc, wellFormed_append, wellFormed_append, wellFormed_append, hsize]
  constructor
  · rintro ⟨hfront, hdropped, hback⟩
    exact ⟨hdropped, hfront, hback⟩
  · rintro ⟨hdropped, hfront, hback⟩
    exact ⟨hfront, hdropped, hback⟩

end Program

end SerialVector
