/-
What programs are translated into.

A program is accepted exactly if it is a row of well formed commands and the mark of
the end.  It is then translated command by command: no command looks at another, but
for the vector size that decides where it ends.
-/
import SerialVector.Proofs.Program.Grammar
import SerialVector.Proofs.Unbounded

namespace SerialVector

namespace Command

/-- A command in the order of play.  A vector size shrinks to its low two bytes, and the
bytes of a vector stand the other way round if they are to be swapped, those of both halves
of a compare as one vector. -/
def translation (swap : Bool) : Command → List UInt8
  | repeats _ | endIr _ | endDr _ => []
  | sdrSize bits => 0x08 :: (BigEndian.encode 4 bits.toNat).drop 2
  | sir bits value => 0x02 :: bits :: if swap then value.reverse else value
  | tdoMask mask => 0x01 :: if swap then mask.reverse else mask
  | sdrTdo tdi tdo => 0x09 :: if swap then (tdi ++ tdo).reverse else tdi ++ tdo
  | runTest clocks => 0x04 :: BigEndian.encode 4 clocks.toNat
  | state value => [0x12, value]
  | raw opcode operand => opcode :: if swap then operand.reverse else operand

/-- How the writer of commands puts it. -/
theorem ite_reverse_eq_playOrder (swap : Bool) (operand : List UInt8) :
    (if swap then operand.reverse else operand) = playOrder swap operand := rfl

@[simp] theorem written_heading (byte : UInt8) (offset : Nat) :
    Event.written (heading byte offset) = [] := by
  unfold heading
  cases Opcode.ofByte? byte <;> rfl

@[simp] theorem consumed_heading (byte : UInt8) (offset : Nat) :
    Event.consumed (heading byte offset) = 1 := by
  unfold heading
  cases Opcode.ofByte? byte <;> rfl

theorem written_events (swap : Bool) (offset : Nat) (c : Command) :
    Event.written (c.events swap offset) = c.translation swap := by
  rw [events, Event.written_append, written_heading, List.nil_append]
  cases c with
  | sdrSize bits => rfl
  | tdoMask mask => simp [operandEvents, translation, playOrder, Opcode.toByte]
  | sir bits value => simp [operandEvents, translation, playOrder, Opcode.toByte]
  | runTest clocks => simp [operandEvents, translation, Opcode.toByte]
  | sdrTdo tdi tdo => simp [operandEvents, translation, playOrder, Opcode.toByte]
  | state value => rfl
  | raw opcode operand => simp [operandEvents, translation, playOrder]
  | repeats count => rfl
  | endIr value => rfl
  | endDr value => rfl

theorem consumed_events (swap : Bool) (offset : Nat) (c : Command) :
    Event.consumed (c.events swap offset) = c.encode.length := by
  rw [events, Event.consumed_append, consumed_heading, encode, List.length_cons, Nat.add_comm]
  cases c <;> simp [operandEvents, operandBytes, Nat.add_comm]

end Command

def Program.translation (swap : Bool) (commands : List Command) : List UInt8 :=
  commands.flatMap (Command.translation swap) ++ [0x00]

theorem Program.translation_cons (swap : Bool) (c : Command) (commands : List Command) :
    translation swap (c :: commands) = c.translation swap ++ translation swap commands := by
  rw [translation, translation, List.flatMap_cons, List.append_assoc]

namespace Listing

theorem written_entriesFrom (swap : Bool) (position : Nat) (commands : List Command) :
    Event.written ((entriesFrom position commands).flatMap
      fun e => e.command.events swap e.offset) =
        commands.flatMap (Command.translation swap) := by
  induction commands generalizing position with
  | nil => rfl
  | cons c commands ih =>
    rw [entriesFrom, List.flatMap_cons, Event.written_append, Command.written_events, ih,
      List.flatMap_cons]

theorem consumed_entriesFrom (swap : Bool) (position : Nat) (commands : List Command) :
    Event.consumed ((entriesFrom position commands).flatMap
      fun e => e.command.events swap e.offset) = (Program.encodeRow commands).length := by
  induction commands generalizing position with
  | nil => rfl
  | cons c commands ih =>
    rw [entriesFrom, List.flatMap_cons, Event.consumed_append, Command.consumed_events, ih,
      Program.encodeRow_cons, List.length_append]

theorem written_complete (offset : Nat) (ignored : List UInt8) :
    Event.written (Ending.complete offset ignored).events = [0x00] := rfl

theorem consumed_complete (offset : Nat) (ignored : List UInt8) :
    Event.consumed (Ending.complete offset ignored).events = 1 := rfl

end Listing

section Accepted

variable {commands : List Command} (h : Program.WellFormed 0 commands) (swap : Bool)
  (ignored : List UInt8)
include h

theorem result_reorder_encode :
    (reorder swap (Program.encode commands ++ ignored) .unbounded).result =
      .ok (Program.bufferSize commands) := by
  rw [result_reorder, Listing.read_encode h]
  show Except.ok (Program.bufferSize (List.map _ _)) = _
  rw [Listing.map_command_entriesFrom]

theorem toList_reorder_encode :
    (reorder swap (Program.encode commands ++ ignored) .unbounded).sink.toList =
      Program.translation swap commands := by
  rw [toList_reorder, Listing.read_encode h]
  show Event.written (_ ++ _) = _
  rw [Event.written_append, Listing.written_entriesFrom, Listing.written_complete]
  rfl

theorem position_reorder_encode :
    (reorder swap (Program.encode commands ++ ignored) .unbounded).position =
      (Program.encode commands).length := by
  rw [position_reorder, Listing.read_encode h]
  show Event.consumed (_ ++ _) = _
  rw [Event.consumed_append, Listing.consumed_entriesFrom, Listing.consumed_complete,
    Program.encode_eq, List.length_append]
  rfl

end Accepted

theorem exists_of_reorder_ok {swap : Bool} {xsvf : List UInt8} {size : Nat}
    (h : (reorder swap xsvf .unbounded).result = .ok size) :
    ∃ commands ignored, Program.WellFormed 0 commands ∧
      xsvf = Program.encode commands ++ ignored := by
  rw [result_reorder] at h
  cases hending : (Listing.read xsvf).ending with
  | complete offset ignored =>
    obtain ⟨commands, hcommands, hxsvf⟩ := Listing.exists_of_complete hending
    exact ⟨commands, ignored, hcommands, hxsvf⟩
  | failed fault =>
    simp only [Listing.transcript, hending, reduceCtorEq] at h

/-- The language of programs.  Bytes behind the mark of the end are not looked at,
and up to there the bytes say which commands they are. -/
theorem reorder_accepts_programs (swap : Bool) (xsvf : List UInt8) :
    ((∃ size, (reorder swap xsvf .unbounded).result = .ok size) ↔
      ∃ commands ignored, Program.WellFormed 0 commands ∧
        xsvf = Program.encode commands ++ ignored) ∧
    ∀ commands ignored, Program.WellFormed 0 commands →
      xsvf = Program.encode commands ++ ignored →
        (∀ others rest, Program.WellFormed 0 others → xsvf = Program.encode others ++ rest →
          others = commands) ∧
        (reorder swap xsvf .unbounded).position = (Program.encode commands).length ∧
        (reorder swap xsvf .unbounded).sink.toList = Program.translation swap commands := by
  refine ⟨⟨?_, ?_⟩, ?_⟩
  · rintro ⟨size, hsize⟩
    exact exists_of_reorder_ok hsize
  · rintro ⟨commands, ignored, hcommands, rfl⟩
    exact ⟨_, result_reorder_encode hcommands swap ignored⟩
  · rintro commands ignored hcommands rfl
    refine ⟨?_, position_reorder_encode hcommands swap ignored,
      toList_reorder_encode hcommands swap ignored⟩
    intro others rest hothers heq
    exact (Program.eq_of_encode_append hcommands hothers heq).symm

/-- Two bytes of vectors each, swapped and as they stand.  A compare is swapped as a whole, so
that what is expected comes before what is shifted. -/
theorem vectors_in_both_orders :
    let commands := [Command.sdrSize 16, .sir 9 [0x31, 0x32], .tdoMask [0x41, 0x42], .repeats 7,
      .sdrTdo [0x11, 0x12] [0x21, 0x22], .raw 0x0C [0x51, 0x52]]
    let xsvf := [0x08, 0x00, 0x00, 0x00, 0x10, 0x02, 0x09, 0x31, 0x32, 0x01, 0x41, 0x42, 0x07, 0x07,
      0x09, 0x11, 0x12, 0x21, 0x22, 0x0C, 0x51, 0x52, 0x00, 0xFF]
    Program.WellFormed 0 commands ∧ xsvf = Program.encode commands ++ [0xFF] ∧
      (∀ swap, (reorder swap xsvf .unbounded).position = 23) ∧
      (reorder true xsvf .unbounded).sink.toList =
        [0x08, 0x00, 0x10, 0x02, 0x09, 0x32, 0x31, 0x01, 0x42, 0x41, 0x09, 0x22, 0x21, 0x12, 0x11,
          0x0C, 0x52, 0x51, 0x00] ∧
      (reorder false xsvf .unbounded).sink.toList =
        [0x08, 0x00, 0x10, 0x02, 0x09, 0x31, 0x32, 0x01, 0x41, 0x42, 0x09, 0x11, 0x12, 0x21, 0x22,
          0x0C, 0x51, 0x52, 0x00] := by
  intro commands xsvf
  have hcommands : Program.WellFormed 0 commands := by decide +kernel
  have hxsvf : xsvf = Program.encode commands ++ [0xFF] := by decide +kernel
  have hruns (swap : Bool) := (reorder_accepts_programs swap xsvf).2 commands [0xFF] hcommands hxsvf
  refine ⟨hcommands, hxsvf, fun swap => (hruns swap).2.1, ?_, ?_⟩
  · exact (hruns true).2.2
  · exact (hruns false).2.2

end SerialVector
