/-
The grammar of programs.

A program is a row of commands, each well formed under the vector size that the
commands before it leave.  Every byte string begins with such a row, and the listing
holds it: `readFrom_append` takes the row off the front, and `exists_commands` says
that behind the longest one stands the end of the program or a command that cannot
be read.
-/
import SerialVector.Listing
import SerialVector.Proofs.Command.Grammar

namespace SerialVector

namespace Program

/-- The vector size that some commands leave. -/
def sizeAfter (size : Nat) (commands : List Command) : Nat :=
  commands.foldl Command.nextSize size

def WellFormed (size : Nat) : List Command → Prop
  | [] => True
  | c :: commands => c.WellFormed size ∧ WellFormed (c.nextSize size) commands

instance decidableWellFormed (size : Nat) (commands : List Command) :
    Decidable (WellFormed size commands) :=
  match commands with
  | [] => .isTrue trivial
  | c :: commands =>
    have := decidableWellFormed (c.nextSize size) commands
    inferInstanceAs (Decidable (_ ∧ _))

def encodeRow (commands : List Command) : List UInt8 := commands.flatMap Command.encode

@[simp] theorem encodeRow_nil : encodeRow [] = [] := rfl

@[simp] theorem encodeRow_cons (c : Command) (commands : List Command) :
    encodeRow (c :: commands) = c.encode ++ encodeRow commands := rfl

theorem encode_eq (commands : List Command) :
    encode commands = encodeRow commands ++ [Opcode.complete.toByte] := rfl

theorem encode_append (commands : List Command) (ignored : List UInt8) :
    encode commands ++ ignored = encodeRow commands ++ Opcode.complete.toByte :: ignored := by
  rw [encode_eq, List.append_assoc]
  rfl

end Program

namespace Listing

/-- The entries of some commands in a row, the first of which begins at
`position`. -/
def entriesFrom (position : Nat) : List Command → List Entry
  | [] => []
  | c :: commands => ⟨position, c⟩ :: entriesFrom (position + c.encode.length) commands

theorem map_command_entriesFrom (position : Nat) (commands : List Command) :
    (entriesFrom position commands).map Entry.command = commands := by
  induction commands generalizing position with
  | nil => rfl
  | cons c commands ih => rw [entriesFrom, List.map_cons, ih]

/-- A row of well formed commands is listed as it stands. -/
theorem readFrom_append {size : Nat} {commands : List Command}
    (h : Program.WellFormed size commands) (position : Nat) (rest : List UInt8) :
    let behind := readFrom [] (Program.sizeAfter size commands)
      ⟨position + (Program.encodeRow commands).length, rest⟩
    readFrom [] size ⟨position, Program.encodeRow commands ++ rest⟩ =
      ⟨entriesFrom position commands ++ behind.entries, behind.ending⟩ := by
  induction commands generalizing size position with
  | nil => rfl
  | cons c commands ih =>
    have hread := Command.read_encode position (Program.encodeRow commands ++ rest) h.1
    rw [Program.encodeRow_cons, List.append_assoc, readFrom_of_command hread, ih h.2,
      List.length_append, Nat.add_assoc]
    rfl

theorem readFrom_encode {size : Nat} {commands : List Command}
    (h : Program.WellFormed size commands) (position : Nat) (ignored : List UInt8) :
    readFrom [] size ⟨position, Program.encode commands ++ ignored⟩ =
      ⟨entriesFrom position commands,
        .complete (position + (Program.encodeRow commands).length) ignored⟩ := by
  rw [Program.encode_append, readFrom_append h, readFrom_of_complete rfl]
  simp

/-- The longest row of well formed commands at the front of some bytes. -/
theorem exists_commands (size : Nat) (c : Cursor) :
    ∃ commands rest, Program.WellFormed size commands ∧
      c.rest = Program.encodeRow commands ++ rest ∧
      ((∃ ignored, rest = Opcode.complete.toByte :: ignored) ∨
        ∃ fault, Command.read (Program.sizeAfter size commands)
          ⟨c.position + (Program.encodeRow commands).length, rest⟩ = .error fault) := by
  induction hn : c.remaining using Nat.strongRecOn generalizing size c with
  | ind n ih =>
    cases hread : Command.read size c with
    | error fault => exact ⟨[], c.rest, trivial, rfl, .inr ⟨fault, hread⟩⟩
    | ok p =>
      obtain ⟨command, d⟩ := p
      cases command with
      | none => exact ⟨[], c.rest, trivial, rfl, .inl ⟨d.rest, Command.rest_of_read_none hread⟩⟩
      | some command =>
        have hlt := Command.remaining_lt_of_read hread
        obtain ⟨hcommand, hc⟩ := Command.wellFormed_of_read hread
        have hd : d.position = c.position + command.encode.length := by
          have hagain := Command.read_encode c.position d.rest hcommand
          rw [← hc, hread] at hagain
          simp only [Except.ok.injEq, Prod.mk.injEq, true_and] at hagain
          rw [hagain]
        obtain ⟨commands, rest, hcommands, hrest, hending⟩ :=
          ih d.remaining (hn ▸ hlt) (command.nextSize size) d rfl
        refine ⟨command :: commands, rest, ⟨hcommand, hcommands⟩, ?_, ?_⟩
        · rw [hc, hrest, Program.encodeRow_cons, List.append_assoc]
        · rw [Program.encodeRow_cons, List.length_append, ← Nat.add_assoc, ← hd]
          exact hending

theorem exists_of_complete {xsvf ignored : List UInt8} {offset : Nat}
    (h : (read xsvf).ending = .complete offset ignored) :
    ∃ commands, Program.WellFormed 0 commands ∧ xsvf = Program.encode commands ++ ignored := by
  obtain ⟨commands, rest, hcommands, hxsvf, hending⟩ := exists_commands 0 (Cursor.start xsvf)
  simp only [Cursor.start] at hxsvf
  rcases hending with ⟨behind, rfl⟩ | ⟨fault, hfault⟩
  · have hread : xsvf = Program.encode commands ++ behind := by
      rw [hxsvf, Program.encode_append]
    rw [read, Cursor.start, hread, readFrom_encode hcommands] at h
    cases h
    exact ⟨commands, hcommands, hread⟩
  · have hrow := readFrom_append hcommands 0 rest
    simp only [Cursor.start] at hfault
    rw [readFrom_of_error hfault] at hrow
    rw [read, Cursor.start, hxsvf, hrow] at h
    cases h

theorem read_encode {commands : List Command} (h : Program.WellFormed 0 commands)
    (ignored : List UInt8) :
    read (Program.encode commands ++ ignored) =
      ⟨entriesFrom 0 commands, .complete (Program.encodeRow commands).length ignored⟩ := by
  rw [read, Cursor.start, readFrom_encode h, Nat.zero_add]

end Listing

/-- A program is one row of commands only. -/
theorem Program.eq_of_encode_append {commands others : List Command} {ignored rest : List UInt8}
    (h : WellFormed 0 commands) (h' : WellFormed 0 others)
    (heq : encode commands ++ ignored = encode others ++ rest) : commands = others := by
  have hread := Listing.read_encode h ignored
  rw [heq, Listing.read_encode h' rest] at hread
  simp only [Listing.mk.injEq] at hread
  rw [← Listing.map_command_entriesFrom 0 commands, ← hread.1, Listing.map_command_entriesFrom]

end SerialVector
