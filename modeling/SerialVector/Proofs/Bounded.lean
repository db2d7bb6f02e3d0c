/-
Sinks that fill up.

A full sink cuts the output off at its capacity and reports that size, whatever the stage
was about to do or to fail with behind it.  Output that fits leaves no trace of the bound.
`CutAtCapacity` says both of a stage.  It is shown once, of playing a transcript, and each
stage only adds records to that.
-/
import SerialVector.Proofs.Conversion

namespace SerialVector

namespace Sink

/-! ## Bytes one after the other -/

def isFull (s : Sink) : Bool := s.capacity.any (· ≤ s.size)

/-- A full sink refuses the byte. -/
def appendByte (s : Sink) (b : UInt8) : Sink × Option ConversionError :=
  if s.isFull then (s, some (.sinkFull s.size)) else ({ s with bytes := s.bytes.push b }, none)

/-- Appends byte by byte, up to the first that is refused. -/
def appendEach (s : Sink) : List UInt8 → Sink × Option ConversionError
  | [] => (s, none)
  | b :: bytes =>
    match s.appendByte b with
    | (s, none) => s.appendEach bytes
    | (s, some error) => (s, some error)

theorem isFull_iff {s : Sink} : s.isFull = true ↔ ∃ most, s.capacity = some most ∧ most ≤ s.size := by
  simp [isFull, Option.any_eq_true]

theorem append_nil (s : Sink) : s.append [] = (s, none) := by
  have hnone : s.fitting [] = [] := by
    unfold fitting
    split
    · rfl
    · exact List.take_nil
  simp [append, hnone]

theorem append_cons_of_full {s : Sink} (h : s.isFull = true) (b : UInt8) (bytes : List UInt8) :
    s.append (b :: bytes) = (s, some (.sinkFull s.size)) := by
  obtain ⟨most, hcapacity, hmost⟩ := isFull_iff.mp h
  have hroom : most - s.size = 0 := by omega
  have hfitting : s.fitting (b :: bytes) = [] := by
    simp only [fitting, hcapacity, hroom, List.take_zero]
  rw [append, hfitting]
  simp

theorem append_cons_of_room {s : Sink} (h : s.isFull = false) (b : UInt8) (bytes : List UInt8) :
    s.append (b :: bytes) = append { s with bytes := s.bytes.push b } bytes := by
  have hfitting : s.fitting (b :: bytes) =
      b :: fitting { s with bytes := s.bytes.push b } bytes := by
    cases hcapacity : s.capacity with
    | none => simp [fitting, hcapacity]
    | some most =>
      have hroom : s.size < most := by
        apply Nat.lt_of_not_le
        intro hle
        rw [isFull_iff.mpr ⟨most, hcapacity, hle⟩] at h
        cases h
      have hsize : most - s.size = most - (s.size + 1) + 1 := by omega
      have hpushed : (s.bytes.push b).size = s.size + 1 := Array.size_push b
      simp only [fitting, hcapacity]
      rw [hsize, List.take_succ_cons, size, size, hpushed]
      rfl
  rw [append, append, hfitting]
  simp

/-- Appending a row of bytes is appending each of them. -/
theorem append_eq_appendEach (s : Sink) (bytes : List UInt8) :
    s.append bytes = s.appendEach bytes := by
  induction bytes generalizing s with
  | nil => exact append_nil s
  | cons b bytes ih =>
    rw [appendEach, appendByte]
    cases hfull : s.isFull with
    | true => exact append_cons_of_full hfull b bytes
    | false =>
      rw [append_cons_of_room hfull, ih]
      rfl

/-- What a sink that lacks room keeps. -/
theorem append_of_lacking {capacity : Nat} {content : Array UInt8} {bytes : List UInt8}
    (hcontent : content.size ≤ capacity) (hlacking : capacity < content.size + bytes.length) :
    append ⟨some capacity, content⟩ bytes =
      (⟨some capacity, content ++ bytes.take (capacity - content.size)⟩,
        some (.sinkFull capacity)) := by
  have hfitting : fitting ⟨some capacity, content⟩ bytes =
      bytes.take (capacity - content.size) := rfl
  have hlength : (bytes.take (capacity - content.size)).length = capacity - content.size := by
    rw [List.length_take]
    omega
  have hsize : (content ++ bytes.take (capacity - content.size)).size = capacity := by
    rw [size_append_list, hlength]
    omega
  have hshort : ¬ capacity - content.size = bytes.length := by omega
  simp only [append, hfitting, hlength, hshort, if_false, size, hsize]

theorem eq_sinkFull_of_append {s s' : Sink} {bytes : List UInt8} {error : ConversionError}
    (h : s.append bytes = (s', some error)) : error = .sinkFull s'.size := by
  simp only [append, Prod.mk.injEq] at h
  obtain ⟨rfl, herror⟩ := h
  split at herror
  · cases herror
  · exact (Option.some.inj herror).symm

theorem fitting_prefix (s : Sink) (bytes : List UInt8) : s.fitting bytes <+: bytes := by
  unfold fitting
  split
  · exact List.prefix_rfl
  · exact List.take_prefix _ _

theorem fitting_of_append {s s' : Sink} {bytes : List UInt8}
    (h : s.append bytes = (s', none)) : s.fitting bytes = bytes := by
  have hlength : (s.fitting bytes).length = bytes.length := by
    simp only [append, Prod.mk.injEq, ite_eq_left_iff, reduceCtorEq, imp_false,
      Decidable.not_not] at h
    exact h.2
  exact (s.fitting_prefix bytes).eq_of_length hlength

theorem fitting_ne_of_append {s s' : Sink} {bytes : List UInt8} {error : ConversionError}
    (h : s.append bytes = (s', some error)) : s.fitting bytes ≠ bytes := by
  intro hfits
  simp only [append, hfits, if_true, Prod.mk.injEq, reduceCtorEq, and_false] at h

end Sink

/-! ## Stages -/

/-- A bound on the sink does nothing to a stage but to end it where the output reaches the
bound. -/
def CutAtCapacity {α : Type} (stage : Sink → Run α) : Prop :=
  ∀ capacity,
    ((stage .unbounded).sink.toList.length ≤ capacity →
      (stage (.bounded capacity)).result = (stage .unbounded).result ∧
        (stage (.bounded capacity)).sink.toList = (stage .unbounded).sink.toList ∧
        (stage (.bounded capacity)).position = (stage .unbounded).position ∧
        (stage (.bounded capacity)).log = (stage .unbounded).log) ∧
    (capacity < (stage .unbounded).sink.toList.length →
      (stage (.bounded capacity)).result = .error (.sinkFull capacity) ∧
        (stage (.bounded capacity)).sink.toList =
          (stage .unbounded).sink.toList.take capacity)

namespace Transcript

/-- A transcript that the sink has no room for. -/
theorem playFrom_of_lacking {α : Type} {capacity : Nat} {events : List Event}
    (result : Except ConversionError α) (content : Array UInt8) (position : Nat)
    (log : Array LogRecord) (hcontent : content.size ≤ capacity)
    (hlacking : capacity < content.size + (Event.written events).length) :
    (playFrom result ⟨some capacity, content⟩ position log events).result =
        .error (.sinkFull capacity) ∧
      (playFrom result ⟨some capacity, content⟩ position log events).sink.toList =
        (content.toList ++ Event.written events).take capacity := by
  induction events generalizing content position log with
  | nil =>
    have hnil : (Event.written []).length = 0 := rfl
    omega
  | cons e events ih =>
    cases e with
    | read count =>
      rw [playFrom]
      exact ih _ _ _ hcontent hlacking
    | note record =>
      rw [playFrom]
      exact ih _ _ _ hcontent hlacking
    | write bytes =>
      rw [Event.written_write, List.length_append] at hlacking
      rw [Event.written_write]
      by_cases hfirst : content.size + bytes.length ≤ capacity
      · have happend : Sink.append ⟨some capacity, content⟩ bytes =
            (⟨some capacity, content ++ bytes⟩, none) := by
          refine Sink.append_of_fits fun most hmost => ?_
          cases hmost
          exact hfirst
        have hsize := Sink.size_append_list content bytes
        have hrest := ih (content ++ bytes) position log (by omega) (by omega)
        rw [Array.toList_appendList, List.append_assoc] at hrest
        rw [playFrom, happend]
        exact hrest
      · have hroom : capacity - content.toList.length ≤ bytes.length := by
          rw [Array.length_toList]
          omega
        have hkept : content.toList.take capacity = content.toList :=
          List.take_of_length_le (by rw [Array.length_toList]; exact hcontent)
        have hcut : (content ++ bytes.take (capacity - content.size)).toList =
            (content.toList ++ (bytes ++ Event.written events)).take capacity := by
          rw [List.take_append, hkept, List.take_append_of_le_length hroom,
            Array.toList_appendList, Array.length_toList]
        rw [playFrom, Sink.append_of_lacking hcontent (Nat.lt_of_not_le hfirst)]
        exact ⟨rfl, hcut⟩

theorem cutAtCapacity_play {α : Type} (t : Transcript α) : CutAtCapacity t.play := by
  intro capacity
  have hwhole := play_unbounded t
  have hcontent : (t.play .unbounded).sink.toList = Event.written t.events := by
    rw [hwhole]
    rfl
  constructor
  · intro hfits
    rw [hcontent] at hfits
    have hbounded : t.play (.bounded capacity) = _ := playFrom_of_fits t.result #[] 0 #[]
      fun most hmost => by
        cases hmost
        show 0 + _ ≤ capacity
        omega
    rw [hbounded, hwhole]
    simp [Sink.toList]
  · intro hlacking
    rw [hcontent] at hlacking ⊢
    exact playFrom_of_lacking t.result #[] 0 #[] (Nat.zero_le _) (by simpa using hlacking)

end Transcript

/-- Records that a stage adds at its end say nothing of the capacity. -/
theorem CutAtCapacity.noting {α : Type} {stage : Sink → Run α} (h : CutAtCapacity stage)
    (records : Except ConversionError α → Nat → Nat → List LogRecord) :
    CutAtCapacity fun sink =>
      (stage sink).noting
        (records (stage sink).result (stage sink).position (stage sink).sink.size) := by
  intro capacity
  obtain ⟨hfits, hlacking⟩ := h capacity
  refine ⟨?_, hlacking⟩
  intro hlength
  obtain ⟨hresult, hcontent, hposition, hlog⟩ := hfits hlength
  have hsize : (stage (.bounded capacity)).sink.size = (stage .unbounded).sink.size := by
    rw [← Sink.length_toList, ← Sink.length_toList, hcontent]
  refine ⟨hresult, hcontent, hposition, ?_⟩
  show (stage _).log ++ _ = (stage _).log ++ _
  rw [hlog, hresult, hposition, hsize]

/-- What is said of a program at its end. -/
def Listing.Ending.records (ending : Listing.Ending) (result : Except ConversionError Nat)
    (position written : Nat) : List LogRecord :=
  match ending, result with
  | .complete _ ignored, .ok size => reorderedRecords ignored.length position written size
  | .complete .., .error _ => []
  | .failed _, _ => []

theorem reorder_eq_noting (swap : Bool) (xsvf : List UInt8) (sink : Sink) :
    reorder swap xsvf sink =
      let run := ((Listing.read xsvf).transcript swap).play sink
      run.noting ((Listing.read xsvf).ending.records run.result run.position run.sink.size) := by
  have hnone (run : Run Nat) : run = run.noting [] := by
    simp [Run.noting]
  simp only [reorder]
  split
  · rename_i hending hresult
    rw [hending, hresult]
    rfl
  · rename_i hother
    cases hending : (Listing.read xsvf).ending with
    | failed fault => exact hnone _
    | complete offset ignored =>
      cases hresult : (((Listing.read xsvf).transcript swap).play sink).result with
      | error error => exact hnone _
      | ok size => exact absurd hresult (hother offset ignored size hending)

theorem cutAtCapacity_reorder (swap : Bool) (xsvf : List UInt8) :
    CutAtCapacity (reorder swap xsvf) := by
  have hplay := Transcript.cutAtCapacity_play ((Listing.read xsvf).transcript swap)
  have hstage := hplay.noting (Listing.read xsvf).ending.records
  have heq : reorder swap xsvf = _ := funext (reorder_eq_noting swap xsvf)
  rw [heq]
  exact hstage

/-- What is said of bytes that were packed. -/
def Body.packedRecords (data : List UInt8) (written : Nat) :
    Except ConversionError Unit → List LogRecord
  | .ok () => [.packed data.length (segments data).length written]
  | .error _ => []

theorem pack_eq_noting (data : List UInt8) (sink : Sink) :
    Body.pack data sink =
      let run := (Body.transcript (segments data)).play sink
      run.noting (Body.packedRecords data run.sink.size run.result) := by
  simp only [Body.pack]
  split
  · rename_i hresult
    rw [hresult]
    rfl
  · rename_i error hresult
    rw [hresult]
    simp [Run.noting, Body.packedRecords]

theorem cutAtCapacity_pack (data : List UInt8) : CutAtCapacity (Body.pack data) := by
  have hplay := Transcript.cutAtCapacity_play (Body.transcript (segments data))
  have hstage := hplay.noting fun result _ written => Body.packedRecords data written result
  have heq : Body.pack data = _ := funext (pack_eq_noting data)
  rw [heq]
  exact hstage

/-- A stage that writes nothing is not cut. -/
theorem cutAtCapacity_of_untouched {α : Type} (result : Except ConversionError α)
    (position : Nat) (log : List LogRecord) :
    CutAtCapacity fun sink => ⟨result, sink, position, log⟩ := by
  intro capacity
  exact ⟨fun _ => ⟨rfl, rfl, rfl, rfl⟩, fun h => absurd h (Nat.not_lt_zero capacity)⟩

/-- A stage that ends with another one is cut as that one is. -/
theorem CutAtCapacity.passed_on {α β : Type} {stage : Sink → Run α} (h : CutAtCapacity stage)
    (f : α → β) (position : Nat) (log : List LogRecord) :
    CutAtCapacity fun sink =>
      ⟨(stage sink).result.map f, (stage sink).sink, position, log ++ (stage sink).log⟩ := by
  intro capacity
  obtain ⟨hfits, hlacking⟩ := h capacity
  constructor
  · intro hlength
    obtain ⟨hresult, hcontent, -, hlog⟩ := hfits hlength
    exact ⟨congrArg (Except.map f) hresult, hcontent, rfl, congrArg (log ++ ·) hlog⟩
  · intro hlength
    obtain ⟨hresult, hcontent⟩ := hlacking hlength
    exact ⟨congrArg (Except.map f) hresult, hcontent⟩

theorem cutAtCapacity_convertInto (config : Config) (xsvf : List UInt8) :
    CutAtCapacity (convertInto config xsvf) := by
  cases hhint : config.hintFits with
  | false =>
    have heq : convertInto config xsvf = _ := funext fun sink => convertInto_of_hint sink hhint
    rw [heq]
    exact cutAtCapacity_of_untouched _ _ _
  | true =>
    cases hresult : (reorder config.swap xsvf .unbounded).result with
    | error error =>
      have heq : convertInto config xsvf = _ :=
        funext fun sink => convertInto_of_error sink hhint hresult
      rw [heq]
      exact cutAtCapacity_of_untouched _ _ _
    | ok size =>
      cases hlimit : config.limitError? size with
      | some error =>
        have heq : convertInto config xsvf = _ :=
          funext fun sink => convertInto_of_limit sink hhint hresult hlimit
        rw [heq]
        exact cutAtCapacity_of_untouched _ _ _
      | none =>
        have heq : convertInto config xsvf = _ :=
          funext fun sink => convertInto_of_pack sink hhint hresult hlimit
        rw [heq]
        exact (cutAtCapacity_pack (reorder config.swap xsvf .unbounded).sink.toList).passed_on
          (fun _ => size) _ _

/-- A full sink changes nothing but that the output ends with it, at each stage and in the
conversion as a whole. -/
theorem full_sink_cuts_output :
    (∀ (sink : Sink) (bytes : List UInt8), sink.append bytes = sink.appendEach bytes) ∧
      (∀ swap xsvf, CutAtCapacity (reorder swap xsvf)) ∧
      (∀ data, CutAtCapacity (Body.pack data)) ∧
      ∀ config xsvf, CutAtCapacity (convertInto config xsvf) :=
  ⟨Sink.append_eq_appendEach, cutAtCapacity_reorder, cutAtCapacity_pack,
    cutAtCapacity_convertInto⟩

end SerialVector
