/-
Carrying out what a command line asks for.

Files are read before anything is written, and the one file that is written is
written last.  A run that fails has therefore changed nothing.
-/
import SerialVector.Body.Contents
import SerialVector.CommandLine.Arguments
import SerialVector.CommandLine.Lines
import SerialVector.Conversion
import SerialVector.PathName

namespace SerialVector.CommandLine

structure Outcome where
  exit : Nat
  stdout : String
  log : List LogLine
  /-- What follows the log on standard error. -/
  complaints : List String
  deriving DecidableEq

def Outcome.lines (o : Outcome) : List Line := standardError o.log o.complaints

/-- Which lines of a log are shown: those up to a level, or none. -/
abbrev Verbosity := Option LogLevel

namespace Verbosity

def standard : Verbosity := some .info

def ofName? : String → Option Verbosity
  | "off" => some none
  | "error" => some (some .error)
  | "warn" => some (some .warn)
  | "info" => some (some .info)
  | "debug" => some (some .debug)
  | "trace" => some (some .trace)
  | _ => none

def shows (v : Verbosity) (line : LogLine) : Bool :=
  v.any fun level => line.level.rank ≤ level.rank

end Verbosity

def say (level : LogLevel) (text : String) : LogLine := ⟨level, "xsvf2csvf", text⟩

def failure (log : List LogLine) (dump : String) : Outcome := ⟨1, "", log, ["Error: " ++ dump]⟩

def success (log : List LogLine) (stdout : String) : Outcome := ⟨0, stdout, log, []⟩

variable {m : Type → Type} [Monad m]

/-- Converts a file and says how large a buffer the player needs.  What is said at the end is
taken to reach standard output.  Where that cannot be written to, the file is there already
and the run fails all the same. -/
def runConvert (disk : Disk m) (config : Config) (input output : String) : m Outcome := do
  let limit := Text.optional (config.bufferLimit.map toString)
  let report ← convertFile disk config input
  let log :=
    [say .debug s!"Conversion config: swap={config.swap}, max_buffer_size={limit}",
      say .info s!"Converting {input}"] ++ report.log.map LogRecord.line
  match report.result with
  | .error error =>
    let line := say .error s!"Conversion failed ({error.kind}): {error.message}"
    return failure (log ++ [line]) error.dump
  | .ok conversion =>
    match ← disk.write output conversion.body with
    | .error error => return failure log error.dump
    | .ok () =>
      let line := say .info s!"Wrote {conversion.body.length} bytes to {output}"
      return success (log ++ [line]) s!"Max buffer size: {conversion.bufferSize}\n"

def runExpand (disk : Disk m) (input output : String) : m Outcome := do
  match ← disk.read input with
  | .error error => return failure [] error.dump
  | .ok body =>
    match Body.expand body with
    | .error error => return failure [] error.dump
    | .ok bytes =>
      match ← disk.write output bytes with
      | .error error => return failure [] error.dump
      | .ok () =>
        let line :=
          say .info s!"Expanded {body.length} bytes into {bytes.length} bytes at {output}"
        return success [line] ""

def Task.config (noSwap : Bool) (maxBuffer : Option Nat) : Config :=
  { Config.standard with swap := !noSwap, bufferLimit := maxBuffer }

/-- Where the output goes: to the path given, or next to the input. -/
def target (input : String) (output : Option String) (extension : String) : String :=
  output.getD (PathName.withExtension input extension)

def Task.run (disk : Disk m) (task : Task) : m Outcome := do
  let outcome ←
    match task with
    | .convert input output noSwap maxBuffer =>
      runConvert disk (Task.config noSwap maxBuffer) input (target input output "csvf")
    | .expand input output => runExpand disk input (target input output "swapped")
  return { outcome with log := say .debug s!"Parsed arguments: {task.dump}" :: outcome.log }

/-- Runs a command line that `parse` takes apart.  One that is not understood touches no file. -/
def runWith (parse : List String → Option Task) (disk : Disk m) (verbosity : Verbosity)
    (arguments : List String) : m Outcome :=
  match parse arguments with
  | none => return ⟨2, "", [], ["error: the command line is not understood"]⟩
  | some task => do
    let outcome ← task.run disk
    return { outcome with log := outcome.log.filter verbosity.shows }

/-- Runs a command line in the grammar of `Task.ofArguments?`. -/
def run (disk : Disk m) (verbosity : Verbosity) (arguments : List String) : m Outcome :=
  runWith Task.ofArguments? disk verbosity arguments

end SerialVector.CommandLine
