/-
Files as a program sees them.

What reads and writes files is a parameter, so that the same program runs on the
files of a machine and on a file system that is a value.
-/
import SerialVector.FileError

namespace SerialVector

structure Disk (m : Type → Type) where
  read : String → m (Except FileError (List UInt8))
  /-- Replaces the file, or makes it. -/
  write : String → List UInt8 → m (Except FileError Unit)

end SerialVector
