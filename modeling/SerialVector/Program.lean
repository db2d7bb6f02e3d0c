/-
Whole programs.
-/
import SerialVector.Command.Basic

namespace SerialVector.Program

/-- A program as a file holds it: its commands, and the mark of its end. -/
def encode (commands : List Command) : List UInt8 :=
  commands.flatMap Command.encode ++ [Opcode.complete.toByte]

/-- The bytes a player holds for the largest compare of the program. -/
def bufferSize (commands : List Command) : Nat :=
  commands.foldl (fun size c => max size c.compareBytes) 0

end SerialVector.Program
