/-
Where programs fail.

A program that is not accepted is a row of well formed commands and then bytes that no
command is read from.  Everything in front of those bytes has been translated by then, so
that the error, the output and the place of the reader follow from the first command that
is refused.
-/
import SerialVector.Proofs.Command.Refusal

namespace SerialVector

namespace Listing

/-- What is done for a program from some cursor on. -/
def eventsFrom (swap : Bool) (size : Nat) (c : Cursor) : List Event :=
  ((readFrom [] size c).transcript swap).events

section Steps

variable {size : Nat} {c d : Cursor} (swap : Bool)

theorem eventsFrom_of_error {fault : Fault} (h : Command.read size c = .error fault) :
    eventsFrom swap size c = fault.events := by
  rw [eventsFrom, readFrom_of_error h]
  rfl

theorem eventsFrom_of_complete (h : Command.read size c = .ok (none, d)) :
    eventsFrom swap size c = (Ending.complete c.position d.rest).events := by
  rw [eventsFrom, readFrom_of_complete h]
  rfl

theorem eventsFrom_of_command {command : Command}
    (h : Command.read size c = .ok (some command, d)) :
    eventsFrom swap size c =
      command.events swap c.position ++ eventsFrom swap (command.nextSize size) d := by
  rw [eventsFrom, readFrom_of_command h]
  simp only [transcript, List.flatMap_cons, List.append_assoc]
  rfl

end Steps

theorem eventsFrom_append {size : Nat} {commands : List Command}
    (h : Program.WellFormed size commands) (swap : Bool) (position : Nat) (rest : List UInt8) :
    eventsFrom swap size ⟨position, Program.encodeRow commands ++ rest⟩ =
      (entriesFrom position commands).flatMap (fun e => e.command.events swap e.offset) ++
        eventsFrom swap (Program.sizeAfter size commands)
          ⟨position + (Program.encodeRow commands).length, rest⟩ := by
  rw [eventsFrom, readFrom_append h]
  simp only [transcript, List.flatMap_append, List.append_assoc]
  rfl

end Listing

section Row

variable {commands : List Command} (h : Program.WellFormed 0 commands) (swap : Bool)
  (rest : List UInt8)
include h

theorem toList_reorder_append :
    (reorder swap (Program.encodeRow commands ++ rest) .unbounded).sink.toList =
      commands.flatMap (Command.translation swap) ++
        Event.written (Listing.eventsFrom swap (Program.sizeAfter 0 commands)
          ⟨(Program.encodeRow commands).length, rest⟩) := by
  have hevents := Listing.eventsFrom_append h swap 0 rest
  rw [Nat.zero_add] at hevents
  rw [toList_reorder]
  show Event.written (Listing.eventsFrom swap 0 ⟨0, Program.encodeRow commands ++ rest⟩) = _
  rw [hevents, Event.written_append, Listing.written_entriesFrom]

theorem position_reorder_append :
    (reorder swap (Program.encodeRow commands ++ rest) .unbounded).position =
      (Program.encodeRow commands).length +
        Event.consumed (Listing.eventsFrom swap (Program.sizeAfter 0 commands)
          ⟨(Program.encodeRow commands).length, rest⟩) := by
  have hevents := Listing.eventsFrom_append h swap 0 rest
  rw [Nat.zero_add] at hevents
  rw [position_reorder]
  show Event.consumed (Listing.eventsFrom swap 0 ⟨0, Program.encodeRow commands ++ rest⟩) = _
  rw [hevents, Event.consumed_append, Listing.consumed_entriesFrom]

theorem result_reorder_of_error {fault : Fault}
    (hread : Command.read (Program.sizeAfter 0 commands)
      ⟨(Program.encodeRow commands).length, rest⟩ = .error fault) :
    (reorder swap (Program.encodeRow commands ++ rest) .unbounded).result = .error fault.error := by
  have hlisting := Listing.readFrom_append h 0 rest
  rw [Nat.zero_add, Listing.readFrom_of_error hread] at hlisting
  rw [result_reorder, Listing.read, Cursor.start, hlisting]
  rfl

end Row

/-- A refused command ends the run, and what it left is all that follows the translation
of the commands before it. -/
theorem reorder_of_refused {commands : List Command} {rest written : List UInt8}
    {error : ConversionError} {count : Nat} (h : Program.WellFormed 0 commands)
    (hrefused : Command.Refused (Program.sizeAfter 0 commands)
      (Program.encodeRow commands).length rest error written count) (swap : Bool) :
    (reorder swap (Program.encodeRow commands ++ rest) .unbounded).result = .error error ∧
      (reorder swap (Program.encodeRow commands ++ rest) .unbounded).sink.toList =
        commands.flatMap (Command.translation swap) ++ written ∧
      (reorder swap (Program.encodeRow commands ++ rest) .unbounded).position =
        (Program.encodeRow commands).length + count := by
  obtain ⟨events, hread, hwritten, hcount⟩ := Command.fails_of_refused hrefused
  have hevents := Listing.eventsFrom_of_error swap hread
  refine ⟨result_reorder_of_error h swap rest hread, ?_, ?_⟩
  · rw [toList_reorder_append h, hevents, hwritten]
  · rw [position_reorder_append h, hevents, hcount]

/-- A byte string is a program, or its longest row of well formed commands stands before
bytes that are refused. -/
theorem Program.encode_or_refused (xsvf : List UInt8) :
    (∃ commands ignored, WellFormed 0 commands ∧ xsvf = encode commands ++ ignored) ∨
      ∃ commands rest error written count, WellFormed 0 commands ∧
        xsvf = encodeRow commands ++ rest ∧
        Command.Refused (sizeAfter 0 commands) (encodeRow commands).length rest error written
          count := by
  obtain ⟨commands, rest, hcommands, hxsvf, hending⟩ :=
    Listing.exists_commands 0 (Cursor.start xsvf)
  have hrow : xsvf = encodeRow commands ++ rest := hxsvf
  rcases hending with ⟨ignored, rfl⟩ | ⟨fault, hread⟩
  · refine .inl ⟨commands, ignored, hcommands, ?_⟩
    rw [hrow, encode_append]
  · have hoffset : (Cursor.start xsvf).position + (encodeRow commands).length =
        (encodeRow commands).length := Nat.zero_add _
    rw [hoffset] at hread
    exact .inr ⟨commands, rest, fault.error, _, _, hcommands, hrow,
      Command.refused_of_read hread⟩

-- The operand of the second command is cut off, and its opcode is out by then.
example :
    (reorder true [0x12, 0x01, 0x04, 0x00, 0x00] .unbounded).result = .error (.truncated 3) ∧
      (reorder true [0x12, 0x01, 0x04, 0x00, 0x00] .unbounded).sink.toList = [0x12, 0x01, 0x04] ∧
      (reorder true [0x12, 0x01, 0x04, 0x00, 0x00] .unbounded).position = 3 :=
  ⟨by cbv, by decide +kernel, by decide +kernel⟩

end SerialVector
