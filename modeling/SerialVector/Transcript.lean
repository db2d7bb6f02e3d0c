/-
What a stage does, kept apart from where it does it.

A stage reads its input, writes output and notes what it is at.  Its transcript
lists these events and the result that follows them.  Playing a transcript into a
sink carries the events out one after the other and stops at the first write that
does not fit.  Everything about full sinks is therefore said once, of `play`.
-/
import SerialVector.Log
import SerialVector.Sink

namespace SerialVector

inductive Event where
  | read (count : Nat)
  | write (bytes : List UInt8)
  | note (record : LogRecord)
  deriving DecidableEq

structure Transcript (α : Type) where
  events : List Event
  result : Except ConversionError α

structure Run (α : Type) where
  result : Except ConversionError α
  sink : Sink
  /-- How much input was read. -/
  position : Nat
  log : List LogRecord

namespace Run

def noting {α : Type} (r : Run α) (records : List LogRecord) : Run α :=
  { r with log := r.log ++ records }

end Run

namespace Transcript

/-- Carries events out from a given state on, and then gives the result, unless a
write fails first. -/
def playFrom {α : Type} (result : Except ConversionError α) (sink : Sink) (position : Nat)
    (log : Array LogRecord) : List Event → Run α
  | [] => ⟨result, sink, position, log.toList⟩
  | .read count :: events => playFrom result sink (position + count) log events
  | .note record :: events => playFrom result sink position (log.push record) events
  | .write bytes :: events =>
    match sink.append bytes with
    | (sink, none) => playFrom result sink position log events
    | (sink, some error) => ⟨.error error, sink, position, log.toList⟩

def play {α : Type} (t : Transcript α) (sink : Sink) : Run α :=
  playFrom t.result sink 0 #[] t.events

/-- Transcripts one after the other up to the first that fails, behind the events so far. -/
def sequenceFrom (events : Array Event) : List (Transcript Unit) → Transcript Unit
  | [] => ⟨events.toList, .ok ()⟩
  | t :: ts =>
    match t.result with
    | .ok () => sequenceFrom (events ++ t.events) ts
    | .error error => ⟨(events ++ t.events).toList, .error error⟩

def sequence (ts : List (Transcript Unit)) : Transcript Unit := sequenceFrom #[] ts

theorem sequenceFrom_eq (events : Array Event) (ts : List (Transcript Unit)) :
    sequenceFrom events ts = ⟨events.toList ++ (sequence ts).events, (sequence ts).result⟩ := by
  unfold sequence
  induction ts generalizing events with
  | nil => simp [sequenceFrom]
  | cons t ts ih =>
    rw [sequenceFrom, sequenceFrom]
    cases t.result with
    | ok done =>
      dsimp only
      rw [ih (events ++ t.events), ih (#[] ++ t.events)]
      simp
    | error error => simp

theorem sequence_cons_of_ok {t : Transcript Unit} (h : t.result = .ok ())
    (ts : List (Transcript Unit)) :
    sequence (t :: ts) = ⟨t.events ++ (sequence ts).events, (sequence ts).result⟩ := by
  simp only [sequence, sequenceFrom, h]
  rw [sequenceFrom_eq]
  simp [sequence]

theorem sequence_cons_of_error {t : Transcript Unit} {error : ConversionError}
    (h : t.result = .error error) (ts : List (Transcript Unit)) :
    sequence (t :: ts) = ⟨t.events, .error error⟩ := by
  simp only [sequence, sequenceFrom, h, Array.toList_appendList, List.nil_append]

end Transcript
end SerialVector
