/-
Turning a program round twice.

With the four bytes of its vector sizes restored, a program in the order of play can be
read again, and the reader finds the same commands under the same vector sizes.  Turning
their vectors once more brings back the order that they had.  Whether vectors are turned at
all makes no difference to the lengths and to where a program fails.
-/
import SerialVector.Proofs.Program.Played
import SerialVector.Proofs.Program.Refusal

namespace SerialVector

/-! ## Commands in the order of play -/

namespace Command

theorem playOrder_comp (first second : Bool) (operand : List UInt8) :
    playOrder second (playOrder first operand) = playOrder (second ^^ first) operand := by
  cases first <;> cases second <;> simp [playOrder]

theorem nextSize_inPlayOrder (swap : Bool) (size : Nat) (c : Command) :
    (c.inPlayOrder swap).nextSize size = c.nextSize size := by
  cases c <;> rfl

theorem nextSize_of_ne_sdrSize {c : Command} (h : ∀ bits, c ≠ sdrSize bits) (size : Nat) :
    c.nextSize size = size := by
  cases c with
  | sdrSize bits => exact absurd rfl (h bits)
  | tdoMask | sir | runTest | repeats | sdrTdo | state | endIr | endDr | raw => rfl

theorem inPlayOrder_ne_sdrSize {c : Command} (h : ∀ bits, c ≠ sdrSize bits) (swap : Bool)
    (bits : UInt32) : c.inPlayOrder swap ≠ sdrSize bits := by
  intro heq
  have hback := inPlayOrder_inPlayOrder swap c
  rw [heq] at hback
  exact h bits hback.symm

theorem compareBytes_inPlayOrder (swap : Bool) (c : Command) :
    (c.inPlayOrder swap).compareBytes = c.compareBytes := by
  cases c with
  | tdoMask mask => exact length_playOrder swap mask
  | sdrTdo tdi tdo =>
    show ((playOrder swap (tdi ++ tdo)).take tdi.length).length = tdi.length
    rw [List.length_take, length_playOrder, List.length_append]
    omega
  | sir | runTest | repeats | sdrSize | state | endIr | endDr | raw => rfl

theorem translation_inPlayOrder (first second : Bool) (c : Command) :
    (c.inPlayOrder first).translation second = c.translation (second ^^ first) := by
  cases c with
  | sdrTdo tdi tdo =>
    simp only [inPlayOrder, translation, ite_reverse_eq_playOrder, List.take_append_drop,
      playOrder_comp]
  | tdoMask mask => simp only [inPlayOrder, translation, ite_reverse_eq_playOrder, playOrder_comp]
  | sir bits value =>
    simp only [inPlayOrder, translation, ite_reverse_eq_playOrder, playOrder_comp]
  | raw opcode operand =>
    simp only [inPlayOrder, translation, ite_reverse_eq_playOrder, playOrder_comp]
  | runTest | repeats | sdrSize | state | endIr | endDr => rfl

theorem length_translation (first second : Bool) (c : Command) :
    (c.translation first).length = (c.translation second).length := by
  cases c <;>
    simp only [translation, ite_reverse_eq_playOrder, List.length_cons, length_playOrder]

end Command

namespace Program

/-! ## Vector sizes of four bytes -/

/-- The bytes with two zeros put in behind the opcode of each vector size, up to the first
place where no command begins. -/
def widen (size : Nat) (bytes : List UInt8) : List UInt8 :=
  match bytes with
  | 0x08 :: high :: low :: rest =>
    0x08 :: 0x00 :: 0x00 :: high :: low :: widen (BigEndian.decode [high, low]) rest
  | bytes =>
    match _h : Command.read size (Cursor.start bytes) with
    | .ok (some c, d) => c.encode ++ widen size d.rest
    | _ => bytes
termination_by bytes.length
decreasing_by
  · simp
    omega
  · exact Command.remaining_lt_of_read _h

theorem widen_of_complete {size : Nat} {bytes : List UInt8} {d : Cursor}
    (h : Command.read size (Cursor.start bytes) = .ok (none, d)) : widen size bytes = bytes := by
  have hbytes : bytes = Opcode.complete.toByte :: d.rest := Command.rest_of_read_none h
  rw [widen]
  · split
    · rename_i hcommand
      rw [h] at hcommand
      cases hcommand
    · rfl
  · rintro high low rest rfl
    exact absurd (List.head_eq_of_cons_eq hbytes) (by decide)

theorem widen_of_command {size : Nat} {bytes : List UInt8} {c : Command} {d : Cursor}
    (h : Command.read size (Cursor.start bytes) = .ok (some c, d))
    (hsize : ∀ bits, c ≠ .sdrSize bits) :
    widen size bytes = c.encode ++ widen size d.rest := by
  obtain ⟨hc, hbytes⟩ := Command.wellFormed_of_read h
  rw [widen]
  · split
    · rename_i c' d' hcommand
      rw [h] at hcommand
      cases hcommand
      rfl
    · rename_i hother
      exact absurd h (hother c d)
  · -- Nothing but a vector size begins with the opcode of one.
    rintro high low rest rfl
    obtain ⟨bits, rfl⟩ := Command.exists_of_opcodeByte_sdrSize hc
      (List.head_eq_of_cons_eq hbytes).symm
    exact absurd rfl (hsize bits)

/-- A vector size of two bytes becomes the command that sets it. -/
theorem widen_sdrSize {bits : UInt32} (h : bits.toNat < 65536) (size : Nat) (swap : Bool)
    (rest : List UInt8) :
    widen size ((Command.sdrSize bits).translation swap ++ rest) =
      (Command.sdrSize bits).encode ++ widen bits.toNat rest := by
  have hhigh : bits.toNat / 256 / 256 = 0 := by omega
  have hencode : (Command.sdrSize bits).encode = [0x08, 0x00, 0x00,
      UInt8.ofNat (bits.toNat / 256), UInt8.ofNat bits.toNat] := by
    show 0x08 :: BigEndian.encode 4 bits.toNat = _
    simp [BigEndian.encode, hhigh]
  have hpair : BigEndian.encode 2 bits.toNat =
      [UInt8.ofNat (bits.toNat / 256), UInt8.ofNat bits.toNat] := rfl
  have hdecode : BigEndian.decode (BigEndian.encode 2 bits.toNat) = bits.toNat :=
    BigEndian.decode_encode_of_lt h
  rw [hpair] at hdecode
  show widen size (0x08 :: UInt8.ofNat (bits.toNat / 256) :: UInt8.ofNat bits.toNat :: rest) = _
  rw [widen, hdecode, hencode]
  rfl

theorem widen_translation_append {size : Nat} {c : Command} (h : c.WellFormed size)
    (hplayed : c.isPlayed = true) (swap : Bool) (rest : List UInt8) :
    widen size (c.translation swap ++ rest) =
      (c.inPlayOrder swap).encode ++ widen (c.nextSize size) rest := by
  by_cases hset : ∃ bits, c = .sdrSize bits
  · obtain ⟨bits, rfl⟩ := hset
    exact widen_sdrSize h size swap rest
  · have hsize (bits : UInt32) : c ≠ .sdrSize bits := fun heq => hset ⟨bits, heq⟩
    have hread := Command.read_encode 0 rest (Command.wellFormed_inPlayOrder h swap)
    rw [Command.translation_eq_encode hplayed hsize, Command.nextSize_of_ne_sdrSize hsize]
    exact widen_of_command hread (Command.inPlayOrder_ne_sdrSize hsize swap)

/-! ## A program in the order of play -/

/-- The commands that the translation of a program spells, but for its vector sizes. -/
def turned (swap : Bool) (commands : List Command) : List Command :=
  (played commands).map (Command.inPlayOrder swap)

section Cons

variable {c : Command} (swap : Bool) (commands : List Command)

theorem turned_cons_of_played (h : c.isPlayed = true) :
    turned swap (c :: commands) = c.inPlayOrder swap :: turned swap commands := by
  rw [turned, played_cons_of_played h, List.map_cons, turned]

theorem turned_cons_of_not_played (h : c.isPlayed = false) :
    turned swap (c :: commands) = turned swap commands := by
  rw [turned, played_cons_of_not_played h, turned]

end Cons

/-- The vector size stays in step while a translation is read, so that commands begin where
they were written. -/
theorem widen_translation {size : Nat} {commands : List Command} (h : WellFormed size commands)
    (swap : Bool) : widen size (translation swap commands) = encode (turned swap commands) := by
  induction commands generalizing size with
  | nil => exact widen_of_complete rfl
  | cons c commands ih =>
    have hrest := ih h.2
    rw [translation_cons]
    cases hplayed : c.isPlayed with
    | true =>
      rw [widen_translation_append h.1 hplayed, hrest, turned_cons_of_played swap commands hplayed,
        encode_eq, encode_eq, encodeRow_cons, List.append_assoc]
    | false =>
      rw [Command.nextSize_of_not_played hplayed] at hrest
      rw [Command.translation_of_not_played hplayed, List.nil_append, hrest,
        turned_cons_of_not_played swap commands hplayed]

theorem wellFormed_turned {size : Nat} {commands : List Command} (h : WellFormed size commands)
    (swap : Bool) : WellFormed size (turned swap commands) := by
  induction commands generalizing size with
  | nil => exact trivial
  | cons c commands ih =>
    have hrest := ih h.2
    cases hplayed : c.isPlayed with
    | true =>
      rw [← Command.nextSize_inPlayOrder swap] at hrest
      rw [turned_cons_of_played swap commands hplayed]
      exact ⟨Command.wellFormed_inPlayOrder h.1 swap, hrest⟩
    | false =>
      rw [Command.nextSize_of_not_played hplayed] at hrest
      rw [turned_cons_of_not_played swap commands hplayed]
      exact hrest

theorem bufferSize_turned (swap : Bool) (commands : List Command) :
    bufferSize (turned swap commands) = bufferSize commands := by
  rw [← bufferSize_played commands, turned, bufferSize, List.foldl_map]
  simp only [Command.compareBytes_inPlayOrder]
  rfl

theorem translation_turned (first second : Bool) (commands : List Command) :
    translation second (turned first commands) = translation (second ^^ first) commands := by
  rw [← translation_played (second ^^ first) commands, turned, translation, translation,
    List.flatMap_map]
  simp only [Command.translation_inPlayOrder]

theorem length_translation (first second : Bool) (commands : List Command) :
    (translation first commands).length = (translation second commands).length := by
  induction commands with
  | nil => rfl
  | cons c commands ih =>
    rw [translation_cons, translation_cons, List.length_append, List.length_append, ih,
      Command.length_translation first second]

end Program

section Twice

variable {commands : List Command} (h : Program.WellFormed 0 commands) (first second : Bool)
include h

theorem result_reorder_widen :
    (reorder second (Program.widen 0 (Program.translation first commands)) .unbounded).result =
      .ok (Program.bufferSize commands) := by
  have hturned := result_reorder_encode (Program.wellFormed_turned h first) second []
  rw [List.append_nil] at hturned
  rw [Program.widen_translation h, hturned, Program.bufferSize_turned]

theorem toList_reorder_widen :
    (reorder second (Program.widen 0 (Program.translation first commands)) .unbounded).sink.toList =
      Program.translation (second ^^ first) commands := by
  have hturned := toList_reorder_encode (Program.wellFormed_turned h first) second []
  rw [List.append_nil] at hturned
  rw [Program.widen_translation h, hturned, Program.translation_turned]

end Twice

/-- Whether vectors are turned or not, a program fails alike and comes out at one length. -/
theorem reorder_agrees (first second : Bool) (xsvf : List UInt8) :
    (reorder first xsvf .unbounded).result = (reorder second xsvf .unbounded).result ∧
      (reorder first xsvf .unbounded).position = (reorder second xsvf .unbounded).position ∧
      (reorder first xsvf .unbounded).sink.toList.length =
        (reorder second xsvf .unbounded).sink.toList.length := by
  rcases Program.encode_or_refused xsvf with ⟨commands, ignored, hcommands, rfl⟩ |
    ⟨commands, rest, error, written, count, hcommands, rfl, hrefused⟩
  · refine ⟨?_, ?_, ?_⟩
    · rw [result_reorder_encode hcommands, result_reorder_encode hcommands]
    · rw [position_reorder_encode hcommands, position_reorder_encode hcommands]
    · rw [toList_reorder_encode hcommands, toList_reorder_encode hcommands]
      exact Program.length_translation first second commands
  · obtain ⟨hresult, hcontent, hposition⟩ := reorder_of_refused hcommands hrefused first
    obtain ⟨hresult', hcontent', hposition'⟩ := reorder_of_refused hcommands hrefused second
    refine ⟨hresult.trans hresult'.symm, hposition.trans hposition'.symm, ?_⟩
    have hlength := Program.length_translation first second commands
    rw [Program.translation, Program.translation, List.length_append, List.length_append] at hlength
    rw [hcontent, hcontent', List.length_append, List.length_append]
    omega

/-- Turning vectors is a matter of order alone.  A program fails alike with and without it,
and where it is accepted, its output can be read again once the vector sizes have four
bytes: turned a second time it is what comes out unturned, and unturned it stays. -/
theorem turning_twice_restores (xsvf : List UInt8) :
    ((reorder true xsvf .unbounded).result = (reorder false xsvf .unbounded).result ∧
      (reorder true xsvf .unbounded).position = (reorder false xsvf .unbounded).position ∧
      (reorder true xsvf .unbounded).sink.toList.length =
        (reorder false xsvf .unbounded).sink.toList.length) ∧
    ∀ size, (reorder true xsvf .unbounded).result = .ok size → ∀ first second,
      let widened := Program.widen 0 (reorder first xsvf .unbounded).sink.toList
      (reorder second widened .unbounded).result = .ok size ∧
        (reorder second widened .unbounded).sink.toList =
          (reorder (second ^^ first) xsvf .unbounded).sink.toList := by
  refine ⟨reorder_agrees true false xsvf, ?_⟩
  intro size h first second
  obtain ⟨commands, ignored, hcommands, rfl⟩ := exists_of_reorder_ok h
  rw [result_reorder_encode hcommands] at h
  rw [toList_reorder_encode hcommands, toList_reorder_encode hcommands]
  intro widened
  constructor
  · rw [← h]
    exact result_reorder_widen hcommands first second
  · exact toList_reorder_widen hcommands first second

/-- A compare of two bytes behind a retry count.  Both of its vectors change places. -/
theorem compare_turned_twice :
    let xsvf := [0x07, 0x20, 0x08, 0x00, 0x00, 0x00, 0x0C, 0x09, 0x01, 0x02, 0x03, 0x04, 0x00]
    let widened := [0x08, 0x00, 0x00, 0x00, 0x0C, 0x09, 0x04, 0x03, 0x02, 0x01, 0x00]
    (reorder true xsvf .unbounded).result = .ok 2 ∧
      Program.widen 0 (reorder true xsvf .unbounded).sink.toList = widened ∧
      (reorder true widened .unbounded).result = .ok 2 ∧
      (reorder true widened .unbounded).sink.toList =
        [0x08, 0x00, 0x0C, 0x09, 0x01, 0x02, 0x03, 0x04, 0x00] := by
  intro xsvf widened
  have h : (reorder true xsvf .unbounded).result = .ok 2 := by cbv
  have hwidened : Program.widen 0 (reorder true xsvf .unbounded).sink.toList = widened := by
    decide +kernel
  obtain ⟨hresult, hcontent⟩ := (turning_twice_restores xsvf).2 2 h true true
  rw [hwidened] at hresult hcontent
  exact ⟨h, hwidened, hresult, hcontent.trans (by decide +kernel)⟩

end SerialVector
