/-
Packing bytes into a body.

A body is a header byte and then, for each segment, the length of its chunk, the
chunk and the length of its run.  The first length that no field holds ends the
packing, with everything before that field written.
-/
import SerialVector.Body.LengthField
import SerialVector.Segment
import SerialVector.Transcript

namespace SerialVector.Body

def header : UInt8 := 0

def lengthTranscript (n : Nat) : Transcript Unit :=
  match lengthField? n with
  | some field => ⟨[.write field], .ok ()⟩
  | none => ⟨[], .error (.unsupportedSize (.lengthOverflow n))⟩

def segmentTranscripts (s : Segment) : List (Transcript Unit) :=
  [lengthTranscript s.chunk.length, ⟨[.write s.chunk], .ok ()⟩, lengthTranscript s.run]

def transcript (segments : List Segment) : Transcript Unit :=
  .sequence (⟨[.write [header]], .ok ()⟩ :: segments.flatMap segmentTranscripts)

def pack (data : List UInt8) (sink : Sink) : Run Unit :=
  let segments := segments data
  let run := (transcript segments).play sink
  match run.result with
  | .ok () => run.noting [.packed data.length segments.length run.sink.size]
  | .error _ => run

end SerialVector.Body
