/-
Reading a program into a list of its commands.

A listing holds the commands that could be read, each with the offset where it
begins, and how the list ends: at the mark of the program's end, behind which
bytes may follow that belong to nothing, or at a command that could not be read.
`Listing.read` collects the commands in reverse, so that a long program needs no
deep stack.
-/
import SerialVector.Command.Progress
import SerialVector.Program

namespace SerialVector

structure Listing.Entry where
  offset : Nat
  command : Command
  deriving DecidableEq

inductive Listing.Ending where
  /-- The end of the program stands at `offset` and `ignored` follows it. -/
  | complete (offset : Nat) (ignored : List UInt8)
  | failed (fault : Fault)

structure Listing where
  entries : List Listing.Entry
  ending : Listing.Ending

namespace Listing

/-- The listing from a cursor on, behind the entries collected so far. -/
def readFrom (entries : List Entry) (size : Nat) (c : Cursor) : Listing :=
  match _h : Command.read size c with
  | .error fault => ⟨entries.reverse, .failed fault⟩
  | .ok (none, d) => ⟨entries.reverse, .complete c.position d.rest⟩
  | .ok (some command, d) =>
    readFrom (⟨c.position, command⟩ :: entries) (command.nextSize size) d
termination_by c.remaining
decreasing_by exact Command.remaining_lt_of_read _h

/-- The listing of a program.  The vector size is 0 until a command sets it. -/
def read (xsvf : List UInt8) : Listing := readFrom [] 0 (Cursor.start xsvf)

def commands (l : Listing) : List Command := l.entries.map Entry.command

def Ending.events : Ending → List Event
  | complete offset _ =>
    Command.heading Opcode.complete.toByte offset ++ [.write [Opcode.complete.toByte]]
  | failed fault => fault.events

/-- How a listed program is written in the order of play.  The result is the size of
the playback buffer. -/
def transcript (swap : Bool) (l : Listing) : Transcript Nat where
  events := l.entries.flatMap (fun e => e.command.events swap e.offset) ++ l.ending.events
  result :=
    match l.ending with
    | .complete .. => .ok (Program.bufferSize l.commands)
    | .failed fault => .error fault.error

/-! ## Reading one command at a time -/

theorem readFrom_eq (entries : List Entry) (size : Nat) (c : Cursor) :
    readFrom entries size c =
      ⟨entries.reverse ++ (readFrom [] size c).entries, (readFrom [] size c).ending⟩ := by
  induction hn : c.remaining using Nat.strongRecOn generalizing entries size c with
  | ind n ih =>
    rw [readFrom, readFrom]
    split
    · simp
    · simp
    · rename_i command d h
      have hlt := Command.remaining_lt_of_read h
      rw [ih d.remaining (hn ▸ hlt) _ _ d rfl, ih d.remaining (hn ▸ hlt) [_] _ d rfl]
      simp

theorem readFrom_of_error {size : Nat} {c : Cursor} {fault : Fault}
    (h : Command.read size c = .error fault) : readFrom [] size c = ⟨[], .failed fault⟩ := by
  rw [readFrom]
  split <;> simp_all

theorem readFrom_of_complete {size : Nat} {c d : Cursor}
    (h : Command.read size c = .ok (none, d)) :
    readFrom [] size c = ⟨[], .complete c.position d.rest⟩ := by
  rw [readFrom]
  split <;> simp_all

theorem readFrom_of_command {size : Nat} {c d : Cursor} {command : Command}
    (h : Command.read size c = .ok (some command, d)) :
    readFrom [] size c =
      ⟨⟨c.position, command⟩ :: (readFrom [] (command.nextSize size) d).entries,
        (readFrom [] (command.nextSize size) d).ending⟩ := by
  rw [readFrom]
  split
  · simp_all
  · simp_all
  · rename_i command' d' h'
    rw [h] at h'
    simp only [Except.ok.injEq, Prod.mk.injEq, Option.some.injEq] at h'
    obtain ⟨rfl, rfl⟩ := h'
    rw [readFrom_eq]
    simp

end Listing
end SerialVector
