/-
What is noted of a command, and when.

Every command is named in the log before anything of it is written, and a vector size is
noted after all that is written of its command.  `IsPhrase` says this of the events of one
command, whether it was read or not.  A sink that fills up inside a command has therefore
seen the name of that command noted and nothing behind it.
-/
import SerialVector.Proofs.Bounded

namespace SerialVector

/-- The record of the command that some bytes begin with, if the first of them is an assigned
opcode. -/
def LogRecord.naming (offset : Nat) (bytes : List UInt8) : List LogRecord :=
  ((bytes.head?.bind Opcode.ofByte?).map fun o => .command o offset).toList

namespace Event

/-- A name is noted before anything is written, and the settings behind all that is. -/
def IsPhrase (name settings : List LogRecord) (events : List Event) : Prop :=
  ∃ opening body closing, events = opening ++ (body ++ closing) ∧
    written opening = [] ∧ noted opening = name ∧ noted body = [] ∧
    written closing = [] ∧ noted closing = settings

end Event

/-! ## Sinks that fill up inside a phrase -/

/-- The run ended where a sink with `held` in it took a part of `bytes` and no more. -/
structure Run.StopsIn {α : Type} (run : Run α) (held bytes : List UInt8)
    (log : List LogRecord) : Prop where
  result_eq : run.result = .error (.sinkFull run.sink.size)
  log_eq : run.log = log
  content : ∃ part, part <+: bytes ∧ part ≠ bytes ∧ run.sink.toList = held ++ part

namespace Run.StopsIn

variable {α : Type} {run : Run α} {held first second : List UInt8} {log : List LogRecord}

theorem append (h : run.StopsIn held first log) (second : List UInt8) :
    run.StopsIn held (first ++ second) log := by
  obtain ⟨part, hpart, hne, hcontent⟩ := h.content
  refine ⟨h.result_eq, h.log_eq, part, hpart.trans (List.prefix_append _ _), ?_, hcontent⟩
  rintro rfl
  have hlength := hpart.length_le
  rw [List.length_append] at hlength
  have hnil : second = [] := List.eq_nil_of_length_eq_zero (by omega)
  rw [hnil, List.append_nil] at hne
  exact hne rfl

theorem behind (h : run.StopsIn (held ++ first) second log) :
    run.StopsIn held (first ++ second) log := by
  obtain ⟨part, hpart, hne, hcontent⟩ := h.content
  refine ⟨h.result_eq, h.log_eq, first ++ part, ?_, ?_, ?_⟩
  · exact (List.prefix_append_right_inj first).mpr hpart
  · exact fun heq => hne (List.append_cancel_left heq)
  · rw [hcontent, List.append_assoc]

end Run.StopsIn

namespace Transcript

section Play

variable {α : Type} (result : Except ConversionError α) (sink : Sink) (position : Nat)
  (log : Array LogRecord) {events : List Event} (more : List Event)

theorem playFrom_of_unwritten (h : Event.written events = []) :
    playFrom result sink position log (events ++ more) =
      playFrom result sink (position + Event.consumed events) (log ++ Event.noted events)
        more := by
  induction events generalizing position log with
  | nil => simp
  | cons e events ih =>
    rw [List.cons_append]
    cases e with
    | read count => rw [playFrom, ih _ _ h, Event.consumed_read, Nat.add_assoc, Event.noted_read]
    | note record =>
      rw [playFrom, ih _ _ h, Event.consumed_note, Event.noted_note]
      simp
    | write bytes =>
      obtain ⟨rfl, hrest⟩ := List.append_eq_nil_iff.mp h
      rw [playFrom, Sink.append_nil]
      exact ih _ _ hrest

/-- Either all is taken and the run goes on, or it ends inside what is written. -/
theorem playFrom_of_unnoted (h : Event.noted events = []) :
    (∃ grown, grown.toList = sink.toList ++ Event.written events ∧
        playFrom result sink position log (events ++ more) =
          playFrom result grown (position + Event.consumed events) log more) ∨
      (playFrom result sink position log (events ++ more)).StopsIn sink.toList
        (Event.written events) log.toList := by
  induction events generalizing sink position with
  | nil => exact .inl ⟨sink, (List.append_nil _).symm, rfl⟩
  | cons e events ih =>
    rw [List.cons_append]
    cases e with
    | read count =>
      rw [playFrom, Event.consumed_read, ← Nat.add_assoc]
      exact ih sink _ h
    | note record => cases h
    | write bytes =>
      rw [playFrom, Event.written_write, Event.consumed_write]
      have hcontent := sink.toList_append bytes
      cases happend : sink.append bytes with
      | mk s failure =>
        rw [happend] at hcontent
        cases failure with
        | none =>
          rw [Sink.fitting_of_append happend] at hcontent
          rcases ih s position h with ⟨grown, hgrown, hplay⟩ | hstops
          · refine .inl ⟨grown, ?_, hplay⟩
            rw [hgrown, hcontent, List.append_assoc]
          · rw [hcontent] at hstops
            exact .inr hstops.behind
        | some error =>
          obtain rfl := Sink.eq_sinkFull_of_append happend
          have hpart : (⟨.error (.sinkFull s.size), s, position, log.toList⟩ : Run α).StopsIn
              sink.toList bytes log.toList :=
            ⟨rfl, rfl, _, sink.fitting_prefix bytes, Sink.fitting_ne_of_append happend, hcontent⟩
          exact .inr (hpart.append _)

/-- A run that ends inside a phrase has noted its name and nothing else of it. -/
theorem playFrom_of_phrase {name settings : List LogRecord}
    (h : Event.IsPhrase name settings events) :
    (∃ grown, grown.toList = sink.toList ++ Event.written events ∧
        playFrom result sink position log (events ++ more) =
          playFrom result grown (position + Event.consumed events) (log ++ (name ++ settings))
            more) ∨
      (playFrom result sink position log (events ++ more)).StopsIn sink.toList
        (Event.written events) (log.toList ++ name) := by
  obtain ⟨opening, body, closing, rfl, hopening, rfl, hbody, hclosing, rfl⟩ := h
  have hwritten : Event.written (opening ++ (body ++ closing)) = Event.written body := by
    simp [hopening, hclosing]
  rw [hwritten, List.append_assoc, List.append_assoc, playFrom_of_unwritten _ _ _ _ _ hopening]
  have hcases := playFrom_of_unnoted result sink (position + Event.consumed opening)
    (log ++ Event.noted opening) (closing ++ more) hbody
  rcases hcases with ⟨grown, hgrown, hplay⟩ | hstops
  · have hlog : log ++ Event.noted opening ++ Event.noted closing =
        log ++ (Event.noted opening ++ Event.noted closing) := Array.toList_inj.mp (by simp)
    refine .inl ⟨grown, hgrown, ?_⟩
    rw [hplay, playFrom_of_unwritten _ _ _ _ _ hclosing, hlog]
    simp only [Event.consumed_append, Nat.add_assoc]
  · rw [Array.toList_appendList] at hstops
    exact .inr hstops

/-- The last phrase of a run, behind which nothing is noted. -/
theorem playFrom_of_last {name : List LogRecord} (h : Event.IsPhrase name [] events) :
    (∃ grown, grown.toList = sink.toList ++ Event.written events ∧
        playFrom result sink position log events =
          ⟨result, grown, position + Event.consumed events, log.toList ++ name⟩) ∨
      (playFrom result sink position log events).StopsIn sink.toList (Event.written events)
        (log.toList ++ name) := by
  have hcases := playFrom_of_phrase result sink position log [] h
  simpa only [List.append_nil, playFrom, Array.toList_appendList] using hcases

end Play

end Transcript

/-! ## The events of a command are a phrase -/

namespace Command

/-- What is noted behind a command. -/
def settings : Command → List LogRecord
  | sdrSize bits => [.sizeSet bits.toNat]
  | _ => []

theorem noted_heading (b : UInt8) (offset : Nat) (rest : List UInt8) :
    Event.noted (heading b offset) = LogRecord.naming offset (b :: rest) := by
  simp only [heading, LogRecord.naming, List.head?_cons, Option.bind_some]
  cases Opcode.ofByte? b <;> rfl

theorem isPhrase_of_heading {b : UInt8} {offset : Nat} {body : List Event} (rest : List UInt8)
    (hbody : Event.noted body = []) :
    Event.IsPhrase (LogRecord.naming offset (b :: rest)) [] (heading b offset ++ body) :=
  ⟨heading b offset, body, [], by rw [List.append_nil], written_heading b offset,
    noted_heading b offset rest, hbody, rfl, rfl⟩

theorem isPhrase_events (swap : Bool) (offset : Nat) (c : Command) :
    Event.IsPhrase (LogRecord.naming offset c.encode) c.settings (c.events swap offset) := by
  cases c with
  | sdrSize bits =>
    exact ⟨heading Opcode.sdrSize.toByte offset,
      [.write [Opcode.sdrSize.toByte], .read 4, .write (BigEndian.encode 2 bits.toNat)],
      [.note (.sizeSet bits.toNat)], rfl, written_heading _ offset, noted_heading _ offset _,
      rfl, rfl, rfl⟩
  | tdoMask | sir | runTest | repeats | sdrTdo | state | endIr | endDr | raw =>
    exact isPhrase_of_heading _ rfl

section Quiet

variable {α β : Type} {done : List Event}

end Quiet

end Command

end SerialVector
