/-
Stages that write into a sink without a bound.

Every write fits there.  A transcript is carried out to its end, and what it
leaves can be read off its events without following the sink.
-/
import SerialVector.Body.Pack
import SerialVector.PlayOrder

namespace SerialVector

namespace Event

def written (events : List Event) : List UInt8 :=
  events.flatMap fun
    | .write bytes => bytes
    | _ => []

def consumed : List Event → Nat
  | [] => 0
  | .read count :: events => count + consumed events
  | .write _ :: events => consumed events
  | .note _ :: events => consumed events

def noted (events : List Event) : List LogRecord :=
  events.flatMap fun
    | .note record => [record]
    | _ => []

@[simp] theorem written_nil : written [] = [] := rfl

@[simp] theorem written_read (count : Nat) (events : List Event) :
    written (.read count :: events) = written events := rfl

@[simp] theorem written_write (bytes : List UInt8) (events : List Event) :
    written (.write bytes :: events) = bytes ++ written events := rfl

@[simp] theorem written_note (record : LogRecord) (events : List Event) :
    written (.note record :: events) = written events := rfl

@[simp] theorem written_append (first second : List Event) :
    written (first ++ second) = written first ++ written second := by
  simp [written]

@[simp] theorem consumed_nil : consumed [] = 0 := rfl

@[simp] theorem consumed_read (count : Nat) (events : List Event) :
    consumed (.read count :: events) = count + consumed events := rfl

@[simp] theorem consumed_write (bytes : List UInt8) (events : List Event) :
    consumed (.write bytes :: events) = consumed events := rfl

@[simp] theorem consumed_note (record : LogRecord) (events : List Event) :
    consumed (.note record :: events) = consumed events := rfl

@[simp] theorem consumed_append (first second : List Event) :
    consumed (first ++ second) = consumed first + consumed second := by
  induction first with
  | nil => rw [List.nil_append, consumed_nil, Nat.zero_add]
  | cons e first ih =>
    rw [List.cons_append]
    cases e with
    | read count => rw [consumed_read, consumed_read, ih, Nat.add_assoc]
    | write bytes => rw [consumed_write, consumed_write, ih]
    | note record => rw [consumed_note, consumed_note, ih]

@[simp] theorem noted_nil : noted [] = [] := rfl

@[simp] theorem noted_read (count : Nat) (events : List Event) :
    noted (.read count :: events) = noted events := rfl

@[simp] theorem noted_write (bytes : List UInt8) (events : List Event) :
    noted (.write bytes :: events) = noted events := rfl

@[simp] theorem noted_note (record : LogRecord) (events : List Event) :
    noted (.note record :: events) = record :: noted events := rfl

end Event

theorem Sink.size_append_list (content : Array UInt8) (bytes : List UInt8) :
    (content ++ bytes).size = content.size + bytes.length := by
  rw [← Array.length_toList, Array.toList_appendList, List.length_append, Array.length_toList]

/-- What a sink has room for is kept whole. -/
theorem Sink.append_of_fits {s : Sink} {bytes : List UInt8}
    (h : ∀ most, s.capacity = some most → s.size + bytes.length ≤ most) :
    s.append bytes = ({ s with bytes := s.bytes ++ bytes }, none) := by
  have hfits : s.fitting bytes = bytes := by
    unfold fitting
    split
    · rfl
    · rename_i most hmost
      have hmost' := h most hmost
      exact List.take_of_length_le (by omega)
  rw [append, hfits]
  simp

namespace Transcript

/-- A transcript that nothing stops, since the sink holds all that it writes. -/
theorem playFrom_of_fits {α : Type} {capacity : Option Nat} {events : List Event}
    (result : Except ConversionError α) (bytes : Array UInt8) (position : Nat)
    (log : Array LogRecord)
    (h : ∀ most, capacity = some most → bytes.size + (Event.written events).length ≤ most) :
    playFrom result ⟨capacity, bytes⟩ position log events =
      ⟨result, ⟨capacity, bytes ++ Event.written events⟩, position + Event.consumed events,
        log.toList ++ Event.noted events⟩ := by
  induction events generalizing bytes position log with
  | nil => simp [playFrom, Event.noted]
  | cons e events ih =>
    cases e with
    | read count =>
      rw [playFrom, ih _ _ _ h, Event.consumed_read, Nat.add_assoc]
      rfl
    | write more =>
      rw [Event.written_write, List.length_append] at h
      have hfirst : Sink.append ⟨capacity, bytes⟩ more = (⟨capacity, bytes ++ more⟩, none) := by
        refine Sink.append_of_fits fun most hmost => ?_
        have hmost' := h most hmost
        show bytes.size + more.length ≤ most
        omega
      have hrest : ∀ most, capacity = some most →
          (bytes ++ more).size + (Event.written events).length ≤ most := by
        intro most hmost
        have hmost' := h most hmost
        rw [Sink.size_append_list]
        omega
      have hbytes : bytes ++ more ++ Event.written events =
          bytes ++ (more ++ Event.written events) := Array.toList_inj.mp (by simp)
      rw [playFrom, hfirst, Event.consumed_write]
      show playFrom result ⟨capacity, bytes ++ more⟩ position log events = _
      rw [ih _ _ _ hrest, hbytes]
      rfl
    | note record =>
      rw [playFrom, ih _ _ _ h, Event.consumed_note]
      simp [Event.noted]

theorem playFrom_unbounded {α : Type} (result : Except ConversionError α) (bytes : Array UInt8)
    (position : Nat) (log : Array LogRecord) (events : List Event) :
    playFrom result ⟨none, bytes⟩ position log events =
      ⟨result, ⟨none, bytes ++ Event.written events⟩, position + Event.consumed events,
        log.toList ++ Event.noted events⟩ :=
  playFrom_of_fits result bytes position log fun _ h => by cases h

theorem play_unbounded {α : Type} (t : Transcript α) :
    t.play .unbounded =
      ⟨t.result, ⟨none, (Event.written t.events).toArray⟩, Event.consumed t.events,
        Event.noted t.events⟩ := by
  unfold play Sink.unbounded
  rw [playFrom_unbounded]
  simp

end Transcript

/-! ## Bringing a program into the order of play -/

/-- The records at the end of a run change nothing but its log. -/
theorem reorder_eq_play (swap : Bool) (xsvf : List UInt8) (sink : Sink) :
    ∃ records, reorder swap xsvf sink =
      (((Listing.read xsvf).transcript swap).play sink).noting records := by
  simp only [reorder]
  split
  · exact ⟨_, rfl⟩
  · exact ⟨[], by simp [Run.noting]⟩

theorem result_reorder (swap : Bool) (xsvf : List UInt8) :
    (reorder swap xsvf .unbounded).result = ((Listing.read xsvf).transcript swap).result := by
  obtain ⟨records, h⟩ := reorder_eq_play swap xsvf .unbounded
  rw [h, Transcript.play_unbounded]
  rfl

theorem toList_reorder (swap : Bool) (xsvf : List UInt8) :
    (reorder swap xsvf .unbounded).sink.toList =
      Event.written ((Listing.read xsvf).transcript swap).events := by
  obtain ⟨records, h⟩ := reorder_eq_play swap xsvf .unbounded
  rw [h, Transcript.play_unbounded]
  simp [Run.noting, Sink.toList]

theorem position_reorder (swap : Bool) (xsvf : List UInt8) :
    (reorder swap xsvf .unbounded).position =
      Event.consumed ((Listing.read xsvf).transcript swap).events := by
  obtain ⟨records, h⟩ := reorder_eq_play swap xsvf .unbounded
  rw [h, Transcript.play_unbounded]
  rfl

/-! ## Packing -/

theorem pack_eq_play (data : List UInt8) (sink : Sink) :
    ∃ records, Body.pack data sink =
      ((Body.transcript (segments data)).play sink).noting records := by
  simp only [Body.pack]
  split
  · exact ⟨_, rfl⟩
  · exact ⟨[], by simp [Run.noting]⟩

theorem result_pack (data : List UInt8) :
    (Body.pack data .unbounded).result = (Body.transcript (segments data)).result := by
  obtain ⟨records, h⟩ := pack_eq_play data .unbounded
  rw [h, Transcript.play_unbounded]
  rfl

theorem toList_pack (data : List UInt8) :
    (Body.pack data .unbounded).sink.toList =
      Event.written (Body.transcript (segments data)).events := by
  obtain ⟨records, h⟩ := pack_eq_play data .unbounded
  rw [h, Transcript.play_unbounded]
  simp [Run.noting, Sink.toList]

end SerialVector
