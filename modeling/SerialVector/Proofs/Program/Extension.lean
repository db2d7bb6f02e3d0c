/-
Programs of which only the front is there.

A verdict other than that the bytes ran out does not change when more bytes follow.  Where
they did run out, nothing has been written that the longer program would not write, since
every write of a command depends only on what was read before it.  `Opens` says this of
one command: what is done first is done whatever follows.
-/
import SerialVector.Proofs.Program.Refusal

namespace SerialVector

namespace Command

/-! ## One command -/

section Refused

variable {size offset count : Nat} {bytes written : List UInt8} {error : ConversionError}

theorem Refused.append (h : Refused size offset bytes error written count)
    (herror : ∀ o, error ≠ .truncated o) (more : List UInt8) :
    Refused size offset (bytes ++ more) error written count := by
  cases h with
  | unsupported hb => exact .unsupported hb
  | state hvalue => exact .state hvalue
  | endState ho hvalue => exact .endState ho hvalue
  | highBits hvalue =>
    rw [List.cons_append, List.append_assoc]
    exact .highBits hvalue
  | compare ho hsize => exact .compare ho hsize
  | shift ho hsize => exact .shift ho hsize
  | cut hcut => exact absurd rfl (herror _)

theorem Refused.count_le (h : Refused size offset bytes error written count) :
    count ≤ bytes.length := by
  cases h with
  | unsupported hb => exact Nat.le_add_left 1 _
  | state hvalue => exact Nat.le_add_left 2 _
  | endState ho hvalue => exact Nat.le_add_left 2 _
  | highBits hvalue =>
    rw [List.length_cons, List.length_append, BigEndian.length_encode]
    omega
  | compare ho hsize => exact Nat.le_add_left 1 _
  | shift ho hsize => exact Nat.le_add_left 1 _
  | cut hcut =>
    cases hcut with
    | nothing => exact Nat.le_refl 0
    | unwritten ho => exact Nat.le_refl 1
    | operand ho hcut => exact Nat.le_add_left 1 _
    | value hcut => exact Nat.le_add_left 2 _

theorem cut_of_truncated {o : Nat}
    (h : Refused size offset bytes (.truncated o) written count) :
    o = offset + count ∧ Cut size bytes written count := by
  cases h with
  | cut hcut => exact ⟨rfl, hcut⟩

end Refused

/-- Whatever comes of reading operands, `done` is done first. -/
def Opens (swap : Bool) (done : List Event) : Except Fault (Option Command × Cursor) → Prop
  | .error fault => done <+: fault.events
  | .ok (none, _) => done = []
  | .ok (some command, _) => done <+: command.operandEvents swap

section Opens

variable {swap : Bool} {done before : List Event} {count : Nat} {c : Cursor}

theorem opens_nil (swap : Bool) (r : Except Fault (Option Command × Cursor)) :
    Opens swap [] r := by
  match r with
  | .error fault => exact List.nil_prefix
  | .ok (none, d) => rfl
  | .ok (some command, d) => exact List.nil_prefix

theorem opens_expectByte {f : UInt8 × Cursor → Except Fault (Option Command × Cursor)}
    (hdone : done <+: before) (hf : ∀ b d, Opens swap done (f (b, d))) :
    Opens swap done (expectByte before c >>= f) := by
  obtain ⟨position, rest⟩ := c
  cases hread : expectByte before ⟨position, rest⟩ with
  | error fault =>
    obtain ⟨-, rfl⟩ := eq_of_expectByte_error hread
    exact hdone
  | ok p => exact hf p.1 p.2

theorem opens_expectBytes {f : List UInt8 × Cursor → Except Fault (Option Command × Cursor)}
    (hdone : done <+: before) (hf : ∀ bytes d, Opens swap done (f (bytes, d))) :
    Opens swap done (expectBytes before count c >>= f) := by
  obtain ⟨position, rest⟩ := c
  cases hread : expectBytes before count ⟨position, rest⟩ with
  | error fault =>
    obtain ⟨-, rfl⟩ := eq_of_expectBytes_error hread
    exact hdone
  | ok p => exact hf p.1 p.2

theorem opens_readCompare {size parts : Nat} {o : Opcode} {command : Nat → List UInt8 → Command}
    (hsize : bytesForBits size ≤ 128)
    (hcommand : ∀ operand,
      [.write [o.toByte]] <+: (command (bytesForBits size) operand).operandEvents swap) :
    Opens swap [.write [o.toByte]] (readCompare o parts command size c) := by
  have hmax : ¬ maxCompare < bytesForBits size := Nat.not_lt.mpr hsize
  simp only [readCompare, hmax, if_false]
  exact opens_expectBytes (List.prefix_refl _) fun operand _ => hcommand operand

theorem opens_readShift {size : Nat} {o : Opcode} (hsize : bytesForBits size ≤ 256) :
    Opens swap [.write [o.toByte]] (readShift o size c) := by
  have hmax : ¬ maxShift < bytesForBits size := Nat.not_lt.mpr hsize
  simp only [readShift, hmax, if_false]
  exact opens_expectBytes (List.prefix_refl _) fun _ _ => List.prefix_append _ _

/-- A command that awaits an operand has its opcode written before the operand is looked
at. -/
theorem opens_of_awaits {size : Nat} {o : Opcode} (ho : Awaits size o count) (swap : Bool)
    (offset : Nat) (c : Cursor) :
    Opens swap [.write [o.toByte]] (readOperands o offset size c) := by
  cases ho with
  | byte ho =>
    rcases ho with rfl | rfl
    · refine opens_expectByte (List.prefix_refl _) fun bits d => ?_
      exact opens_expectBytes (List.prefix_append _ _) fun _ _ => List.prefix_append _ _
    · refine opens_expectByte (List.prefix_refl _) fun value d => ?_
      show Opens _ _ (if TapState.isStableByte value = true then _ else _)
      split
      · exact List.prefix_append _ _
      · exact List.prefix_append _ _
  | word ho =>
    rcases ho with rfl | rfl
    · exact opens_expectBytes (List.prefix_refl _) fun _ _ => List.prefix_append _ _
    · refine opens_expectBytes (List.prefix_refl _) fun value d => ?_
      show Opens _ _ (if (UInt32.ofNat (BigEndian.decode value)).toNat < 65536 then _ else _)
      split
      · exact List.prefix_append _ _
      · exact List.prefix_append _ _
  | mask hsize =>
    simp only [readOperands]
    exact opens_readCompare hsize fun _ => List.prefix_append _ _
  | compare hsize =>
    simp only [readOperands]
    exact opens_readCompare hsize fun _ => List.prefix_append _ _
  | shift ho hsize =>
    rw [readOperands_of_shift ho]
    exact opens_readShift hsize

/-- The bit count of a shift is written before the bits are looked at. -/
theorem opens_sir (swap : Bool) (size offset position : Nat) (bits : UInt8)
    (rest : List UInt8) :
    Opens swap [.write [0x02], .read 1, .write [bits]]
      (readOperands .sir offset size ⟨position, bits :: rest⟩) := by
  simp only [readOperands]
  rw [expectByte_cons, ok_bind]
  exact opens_expectBytes (List.prefix_refl _) fun _ _ => List.prefix_append _ _

end Opens

end Command

namespace Listing

section Opens

variable {swap : Bool} {size position : Nat} {o : Opcode} {done : List Event}
  {rest : List UInt8}

theorem exists_eventsFrom_of_opens
    (h : Command.Opens swap done (Command.readOperands o position size ⟨position + 1, rest⟩)) :
    ∃ behind, eventsFrom swap size ⟨position, o.toByte :: rest⟩ =
      Command.heading o.toByte position ++ (done ++ behind) := by
  cases hoperands : Command.readOperands o position size ⟨position + 1, rest⟩ with
  | error fault =>
    rw [hoperands] at h
    obtain ⟨behind, hbehind⟩ := h
    have hread : Command.read size ⟨position, o.toByte :: rest⟩ =
        .error (Command.begun o.toByte position fault) := by
      rw [Command.read_opcode, hoperands]
      rfl
    refine ⟨behind, ?_⟩
    rw [eventsFrom_of_error swap hread, hbehind]
    rfl
  | ok p =>
    obtain ⟨command, d⟩ := p
    have hread : Command.read size ⟨position, o.toByte :: rest⟩ = .ok (command, d) := by
      rw [Command.read_opcode, hoperands]
      rfl
    have htook := Command.took_of_readOperands hoperands
    rw [hoperands] at h
    cases command with
    | none =>
      obtain ⟨rfl, -⟩ := htook
      have hnil : done = [] := h
      refine ⟨[.write [Opcode.complete.toByte]], ?_⟩
      rw [eventsFrom_of_complete swap hread, hnil]
      rfl
    | some command =>
      obtain ⟨-, hbyte, -⟩ := htook
      obtain ⟨behind, hbehind⟩ := h
      refine ⟨behind ++ eventsFrom swap (command.nextSize size) d, ?_⟩
      rw [eventsFrom_of_command swap hread, Command.events, hbyte, ← hbehind,
        List.append_assoc, List.append_assoc]

theorem le_of_opens
    (h : Command.Opens swap done (Command.readOperands o position size ⟨position + 1, rest⟩)) :
    Event.written done <+:
        Event.written (eventsFrom swap size ⟨position, o.toByte :: rest⟩) ∧
      1 + Event.consumed done ≤
        Event.consumed (eventsFrom swap size ⟨position, o.toByte :: rest⟩) := by
  obtain ⟨behind, hevents⟩ := exists_eventsFrom_of_opens h
  rw [hevents]
  constructor
  · rw [Event.written_append, Command.written_heading, List.nil_append, Event.written_append]
    exact List.prefix_append _ _
  · rw [Event.consumed_append, Command.consumed_heading, Event.consumed_append]
    omega

/-- What was done of a command that is cut off is done of the whole command. -/
theorem le_of_cut {bytes written : List UInt8} {count : Nat}
    (h : Command.Cut size bytes written count) (swap : Bool) (position : Nat)
    (more : List UInt8) :
    written <+: Event.written (eventsFrom swap size ⟨position, bytes ++ more⟩) ∧
      count ≤ Event.consumed (eventsFrom swap size ⟨position, bytes ++ more⟩) := by
  cases h with
  | nothing => exact ⟨List.nil_prefix, Nat.zero_le _⟩
  | unwritten ho => exact le_of_opens (Command.opens_nil swap _)
  | operand ho hcut => exact le_of_opens (Command.opens_of_awaits ho swap _ _)
  | @value bits value hcut =>
    exact le_of_opens (Command.opens_sir swap size position (position + 1) bits (value ++ more))

end Opens

end Listing

/-! ## Whole programs -/

section Run

variable {swap : Bool} {xsvf : List UInt8}

theorem position_reorder_le (swap : Bool) (xsvf : List UInt8) :
    (reorder swap xsvf .unbounded).position ≤ xsvf.length := by
  rcases Program.encode_or_refused xsvf with ⟨commands, ignored, hcommands, rfl⟩ |
    ⟨commands, rest, error, written, count, hcommands, rfl, hrefused⟩
  · rw [position_reorder_encode hcommands, List.length_append]
    omega
  · have hcount := hrefused.count_le
    rw [(reorder_of_refused hcommands hrefused swap).2.2, List.length_append]
    omega

theorem reorder_append_of_not_truncated
    (h : ∀ o, (reorder swap xsvf .unbounded).result ≠ .error (.truncated o))
    (more : List UInt8) :
    (reorder swap (xsvf ++ more) .unbounded).result = (reorder swap xsvf .unbounded).result ∧
      (reorder swap (xsvf ++ more) .unbounded).sink.toList =
        (reorder swap xsvf .unbounded).sink.toList ∧
      (reorder swap (xsvf ++ more) .unbounded).position =
        (reorder swap xsvf .unbounded).position := by
  rcases Program.encode_or_refused xsvf with ⟨commands, ignored, hcommands, rfl⟩ |
    ⟨commands, rest, error, written, count, hcommands, rfl, hrefused⟩
  · rw [List.append_assoc]
    refine ⟨?_, ?_, ?_⟩
    · rw [result_reorder_encode hcommands, result_reorder_encode hcommands]
    · rw [toList_reorder_encode hcommands, toList_reorder_encode hcommands]
    · rw [position_reorder_encode hcommands, position_reorder_encode hcommands]
  · obtain ⟨hresult, houtput, hposition⟩ := reorder_of_refused hcommands hrefused swap
    have herror : ∀ o, error ≠ .truncated o := by
      intro o heq
      exact h o (heq ▸ hresult)
    obtain ⟨hresult', houtput', hposition'⟩ :=
      reorder_of_refused hcommands (hrefused.append herror more) swap
    rw [List.append_assoc]
    exact ⟨hresult'.trans hresult.symm, houtput'.trans houtput.symm,
      hposition'.trans hposition.symm⟩

theorem reorder_append_of_truncated {o : Nat}
    (h : (reorder swap xsvf .unbounded).result = .error (.truncated o)) (more : List UInt8) :
    (reorder swap xsvf .unbounded).position = o ∧
      (reorder swap xsvf .unbounded).sink.toList <+:
        (reorder swap (xsvf ++ more) .unbounded).sink.toList ∧
      o ≤ (reorder swap (xsvf ++ more) .unbounded).position := by
  rcases Program.encode_or_refused xsvf with ⟨commands, ignored, hcommands, rfl⟩ |
    ⟨commands, rest, error, written, count, hcommands, rfl, hrefused⟩
  · rw [result_reorder_encode hcommands] at h
    cases h
  · obtain ⟨hresult, houtput, hposition⟩ := reorder_of_refused hcommands hrefused swap
    rw [hresult] at h
    cases h
    obtain ⟨ho, hcut⟩ := Command.cut_of_truncated hrefused
    obtain ⟨hwritten, hcount⟩ :=
      Listing.le_of_cut hcut swap (Program.encodeRow commands).length more
    refine ⟨hposition.trans ho.symm, ?_, ?_⟩
    · rw [houtput, List.append_assoc, toList_reorder_append hcommands]
      exact (List.prefix_append_right_inj _).mpr hwritten
    · rw [ho, List.append_assoc, position_reorder_append hcommands]
      omega

end Run

/-- How the run on some bytes foretells the run on more.  Of the bytes that a run takes,
of a program that is accepted in particular, each shorter front is therefore said to be
cut off. -/
theorem reorder_of_longer (swap : Bool) (xsvf more : List UInt8) :
    ((∀ o, (reorder swap xsvf .unbounded).result ≠ .error (.truncated o)) →
      (reorder swap (xsvf ++ more) .unbounded).result = (reorder swap xsvf .unbounded).result ∧
        (reorder swap (xsvf ++ more) .unbounded).sink.toList =
          (reorder swap xsvf .unbounded).sink.toList ∧
        (reorder swap (xsvf ++ more) .unbounded).position =
          (reorder swap xsvf .unbounded).position) ∧
    (∀ o, (reorder swap xsvf .unbounded).result = .error (.truncated o) →
      o = (reorder swap xsvf .unbounded).position ∧ o ≤ xsvf.length ∧
        (reorder swap xsvf .unbounded).sink.toList <+:
          (reorder swap (xsvf ++ more) .unbounded).sink.toList ∧
        o ≤ (reorder swap (xsvf ++ more) .unbounded).position) ∧
    ∀ count < (reorder swap xsvf .unbounded).position,
      ∃ o, (reorder swap (xsvf.take count) .unbounded).result = .error (.truncated o) := by
  refine ⟨fun h => reorder_append_of_not_truncated h more, ?_, ?_⟩
  · intro o h
    obtain ⟨hposition, houtput, hlonger⟩ := reorder_append_of_truncated h more
    have hle := position_reorder_le swap xsvf
    rw [hposition] at hle
    exact ⟨hposition.symm, hle, houtput, hlonger⟩
  · intro count hcount
    apply Classical.byContradiction
    intro hnone
    have hfront : ∀ o, (reorder swap (xsvf.take count) .unbounded).result ≠
        .error (.truncated o) := fun o ho => hnone ⟨o, ho⟩
    have hwhole := (reorder_append_of_not_truncated hfront (xsvf.drop count)).2.2
    rw [List.take_append_drop] at hwhole
    have hle := position_reorder_le swap (xsvf.take count)
    rw [List.length_take] at hle
    omega

end SerialVector
