/-
The command line on the files of this machine.
-/
import SerialVector.CommandLine.Run

namespace SerialVector

/-- The failure that the operating system numbers `code` and words as `details`. -/
def FileError.ofCode (code : UInt32) (details : String) : FileError :=
  match code.toNat with
  | 2 => noSuchFile
  | 20 => notADirectory
  | 21 => isADirectory
  | 36 => nameTooLong
  | 13 => .system 13 .permissionDenied details
  | number => .system number .other details

def FileError.ofFailure : IO.Error → FileError
  | .noFileOrDirectory _ code details | .permissionDenied _ code details
  | .inappropriateType _ code details | .invalidArgument _ code details
  | .noSuchThing _ code details | .resourceExhausted _ code details
  | .alreadyExists _ code details | .interrupted _ code details => ofCode code details
  | .otherError code details | .resourceBusy code details | .resourceVanished code details
  | .unsupportedOperation code details | .hardwareFault code details
  | .unsatisfiedConstraints code details | .illegalOperation code details
  | .protocolError code details | .timeExpired code details => ofCode code details
  | .unexpectedEof => .plain .unexpectedEnd
  | .userError _ => .plain .other

def attempt {α : Type} (action : IO α) : IO (Except FileError α) := do
  match ← action.toBaseIO with
  | .ok a => return .ok a
  | .error error => return .error (FileError.ofFailure error)

def machineDisk : Disk IO where
  read path := attempt do
    return (← (← IO.FS.Handle.mk path .read).readBinToEnd).toList
  write path bytes := attempt (IO.FS.writeBinFile path ⟨bytes.toArray⟩)

end SerialVector

open SerialVector in
/-- Runs a command line.  The environment says how much of the log is shown, by the name of a
level.  Filters of other forms are not taken apart and count as none. -/
def main (arguments : List String) : IO UInt32 := do
  let named := (← IO.getEnv "RUST_LOG").bind CommandLine.Verbosity.ofName?
  let outcome ← CommandLine.run machineDisk (named.getD CommandLine.Verbosity.standard) arguments
  for line in outcome.lines do
    IO.eprintln line.render
  IO.print outcome.stdout
  return outcome.exit.toUInt32
