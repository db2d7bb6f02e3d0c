/-
From a program to a body.

A conversion brings the whole program into the order of play before it packs
anything, so that a program that cannot be played leaves the sink as it was.  The
playback limit stands between the two stages.
-/
import SerialVector.Body.Pack
import SerialVector.Disk
import SerialVector.PlayOrder

namespace SerialVector

structure Config where
  /-- Whether vectors are turned into the order of play. -/
  swap : Bool
  /-- How many bytes to make room for at first. -/
  capacityHint : Nat
  /-- How many bytes a player holds for a compare, if that is known. -/
  bufferLimit : Option Nat
  deriving DecidableEq

namespace Config

def standard : Config := ⟨true, 0x20000, none⟩

/-- No buffer is larger than this. -/
def capacityBound : Nat := 1 <<< 63

/-- Whether room can be made at first.  It is taken to fail for a hint of `capacityBound` or
more and for no other, so that a hint below it that exceeds the memory of a machine counts as
one that fits. -/
def hintFits (config : Config) : Bool := config.capacityHint < capacityBound

/-- The error of a program that needs `size` bytes for a compare. -/
def limitError? (config : Config) (size : Nat) : Option ConversionError :=
  match config.bufferLimit with
  | none => none
  | some limit => if limit < size then some (.unsupportedSize (.bufferLimit limit size)) else none

end Config

structure Conversion where
  body : List UInt8
  /-- The bytes a player holds for the largest compare. -/
  bufferSize : Nat
  deriving DecidableEq

structure Report (α : Type) where
  result : Except ConversionError α
  log : List LogRecord

/-- Converts a program into a sink and gives the size of the playback buffer. -/
def convertInto (config : Config) (xsvf : List UInt8) (sink : Sink) : Run Nat :=
  if config.hintFits then
    let reordered := reorder config.swap xsvf .unbounded
    match reordered.result with
    | .error error => { reordered with result := .error error, sink := sink }
    | .ok size =>
      match config.limitError? size with
      | some error => { reordered with result := .error error, sink := sink }
      | none =>
        let packed := Body.pack reordered.sink.toList sink
        { reordered with
          result := packed.result.map fun _ => size
          sink := packed.sink
          log := reordered.log ++ packed.log }
  else
    ⟨.error .capacityOverflow, sink, 0, []⟩

def convert (config : Config) (xsvf : List UInt8) : Report Conversion :=
  let run := convertInto config xsvf .unbounded
  ⟨run.result.map fun size => ⟨run.sink.toList, size⟩, run.log⟩

/-- Converts the program in a file.  Room is made before the file is looked at. -/
def convertFile {m : Type → Type} [Monad m] (disk : Disk m) (config : Config) (path : String) :
    m (Report Conversion) := do
  if config.hintFits then
    match ← disk.read path with
    | .error cause => return ⟨.error (.fileUnreadable path cause), []⟩
    | .ok xsvf =>
      let report := convert config xsvf
      return { report with log := .loaded xsvf.length path :: report.log }
  else
    return ⟨.error .capacityOverflow, []⟩

end SerialVector
