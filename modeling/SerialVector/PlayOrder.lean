/-
Programs in the order of play.

A player shifts vectors as it reads them, so the bytes of every vector are turned
round, and commands that only concern other players are left out.
-/
import SerialVector.Listing

namespace SerialVector

/-- What is said of a program that was written to its end. -/
def reorderedRecords (ignored position written bufferSize : Nat) : List LogRecord :=
  (if ignored = 0 then [] else [.ignored ignored position]) ++
    [.reordered position written bufferSize]

/-- Writes a program in the order of play and gives the size of its playback
buffer.  With `swap` off the vectors keep their order. -/
def reorder (swap : Bool) (xsvf : List UInt8) (sink : Sink) : Run Nat :=
  let listing := Listing.read xsvf
  let run := (listing.transcript swap).play sink
  match listing.ending, run.result with
  | .complete _ ignored, .ok bufferSize =>
    run.noting (reorderedRecords ignored.length run.position run.sink.size bufferSize)
  | _, _ => run

end SerialVector
