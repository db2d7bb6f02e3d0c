/-
What a failed conversion leaves behind.

Bringing a program into the order of play, the limit and the packing come one after the
other, and only the packing writes into the sink of the caller.  Each error belongs to one
of these, so that the error tells whether the sink was touched.

Nothing is asked of a sink but that it keeps what it has taken.  An `Outlet` takes output
and may refuse any of it, however much room there is, and all is shown of outlets.  The
bounded sinks are outlets, and converting into them is `convertInto`.
-/
import SerialVector.Proofs.Body.Overflow
import SerialVector.Proofs.Bounded
import SerialVector.Proofs.Program.Refusal

namespace SerialVector

/-! ## Which errors are of which stage -/

/-- Whether an error comes from the packing, the only stage that writes into the sink. -/
def ConversionError.isOfPacking : ConversionError → Bool
  | .sinkFull _ => true
  | .unsupportedSize (.lengthOverflow _) => true
  | _ => false

theorem isOfPacking_of_refused {size offset count : Nat} {bytes written : List UInt8}
    {error : ConversionError} (h : Command.Refused size offset bytes error written count) :
    error.isOfPacking = false := by
  cases h <;> rfl

theorem isOfPacking_of_reorder {swap : Bool} {xsvf : List UInt8} {error : ConversionError}
    (h : (reorder swap xsvf .unbounded).result = .error error) : error.isOfPacking = false := by
  rcases Program.encode_or_refused xsvf with ⟨commands, ignored, hcommands, rfl⟩ |
    ⟨commands, rest, refusal, written, count, hcommands, rfl, hrefused⟩
  · rw [result_reorder_encode hcommands] at h
    cases h
  · rw [(reorder_of_refused hcommands hrefused swap).1] at h
    cases h
    exact isOfPacking_of_refused hrefused

theorem isOfPacking_of_limitError {config : Config} {size : Nat} {error : ConversionError}
    (h : config.limitError? size = some error) : error.isOfPacking = false := by
  obtain ⟨limit, -, -, rfl⟩ := Config.exists_of_limitError? h
  rfl

theorem isOfPacking_of_overflow {data : List UInt8} {error : ConversionError}
    (h : (Body.pack data .unbounded).result = .error error) : error.isOfPacking = true := by
  obtain ⟨front, s, back, -, -, ⟨-, rfl⟩ | ⟨-, -, rfl⟩⟩ := Body.exists_of_pack_error h
  · rfl
  · rfl

/-! ## Outlets -/

/-- Whatever takes output.  A row of bytes, which may be handed over in several calls, is
refused as a whole or from some byte of it on. -/
structure Outlet (σ : Type) where
  content : σ → List UInt8
  append : σ → List UInt8 → σ × Option ConversionError
  content_of_taken : ∀ {s s' : σ} {bytes : List UInt8}, append s bytes = (s', none) →
    content s' = content s ++ bytes
  content_of_refused : ∀ {s s' : σ} {bytes : List UInt8} {error : ConversionError},
    append s bytes = (s', some error) →
      (∃ size, error = .sinkFull size) ∧
        ∃ front, front <+: bytes ∧ content s' = content s ++ front

def Sink.outlet : Outlet Sink where
  content := Sink.toList
  append := Sink.append
  content_of_taken := by
    intro s s' bytes h
    have hcontent := s.toList_append bytes
    rw [h, Sink.fitting_of_append h] at hcontent
    exact hcontent
  content_of_refused := by
    intro s s' bytes error h
    have hcontent := s.toList_append bytes
    rw [h] at hcontent
    exact ⟨⟨_, Sink.eq_sinkFull_of_append h⟩, s.fitting bytes, s.fitting_prefix bytes, hcontent⟩

namespace Outlet

variable {σ : Type} (outlet : Outlet σ)

/-- Carries the writes of a transcript out. -/
def play {α : Type} (result : Except ConversionError α) (s : σ) :
    List Event → Except ConversionError α × σ
  | [] => (result, s)
  | .read _ :: events => play result s events
  | .note _ :: events => play result s events
  | .write bytes :: events =>
    match outlet.append s bytes with
    | (s, none) => play result s events
    | (s, some error) => (.error error, s)

def pack (data : List UInt8) (s : σ) : Except ConversionError Unit × σ :=
  outlet.play (Body.transcript (segments data)).result s (Body.transcript (segments data)).events

def convert (config : Config) (xsvf : List UInt8) (s : σ) : Except ConversionError Nat × σ :=
  if config.hintFits then
    let reordered := reorder config.swap xsvf .unbounded
    match reordered.result with
    | .error error => (.error error, s)
    | .ok size =>
      match config.limitError? size with
      | some error => (.error error, s)
      | none =>
        let packed := outlet.pack reordered.sink.toList s
        (packed.1.map fun _ => size, packed.2)
  else
    (.error .capacityOverflow, s)

/-- Either everything was taken, or a front of it up to where the outlet refused. -/
theorem play_cases {α : Type} (result : Except ConversionError α) (s : σ) (events : List Event) :
    (outlet.play result s events).1 = result ∧
        outlet.content (outlet.play result s events).2 =
          outlet.content s ++ Event.written events ∨
      (∃ size, (outlet.play result s events).1 = .error (.sinkFull size)) ∧
        ∃ front, front <+: Event.written events ∧
          outlet.content (outlet.play result s events).2 = outlet.content s ++ front := by
  induction events generalizing s with
  | nil => exact .inl ⟨rfl, (List.append_nil _).symm⟩
  | cons e events ih =>
    cases e with
    | read count => exact ih s
    | note record => exact ih s
    | write bytes =>
      rw [play, Event.written_write]
      cases happend : outlet.append s bytes with
      | mk s' failure =>
        cases failure with
        | none =>
          have htaken := outlet.content_of_taken happend
          rcases ih s' with ⟨hresult, hcontent⟩ | ⟨hrefused, front, hfront, hcontent⟩
          · refine .inl ⟨hresult, ?_⟩
            rw [← List.append_assoc, ← htaken]
            exact hcontent
          · refine .inr ⟨hrefused, bytes ++ front, ?_, ?_⟩
            · exact (List.prefix_append_right_inj bytes).mpr hfront
            · rw [← List.append_assoc, ← htaken]
              exact hcontent
        | some error =>
          obtain ⟨⟨size, rfl⟩, front, hfront, hcontent⟩ := outlet.content_of_refused happend
          exact .inr ⟨⟨size, rfl⟩, front, hfront.trans (List.prefix_append _ _), hcontent⟩

/-- What packing leaves in an outlet, by what it writes where nothing is refused. -/
theorem pack_cases (data : List UInt8) (s : σ) :
    (outlet.pack data s).1 = (Body.pack data .unbounded).result ∧
        outlet.content (outlet.pack data s).2 =
          outlet.content s ++ (Body.pack data .unbounded).sink.toList ∨
      (∃ size, (outlet.pack data s).1 = .error (.sinkFull size)) ∧
        ∃ front, front <+: (Body.pack data .unbounded).sink.toList ∧
          outlet.content (outlet.pack data s).2 = outlet.content s ++ front := by
  rw [result_pack, toList_pack]
  exact outlet.play_cases _ s _

theorem isOfPacking_of_pack {data : List UInt8} {s : σ} {error : ConversionError}
    (h : (outlet.pack data s).1 = .error error) : error.isOfPacking = true := by
  rcases outlet.pack_cases data s with ⟨hresult, -⟩ | ⟨⟨size, hresult⟩, -⟩
  · exact isOfPacking_of_overflow (hresult.symm.trans h)
  · rw [hresult] at h
    cases h
    rfl

/-! ### What a conversion comes to -/

section Outcomes

variable {config : Config} {xsvf : List UInt8} (s : σ)

theorem convert_of_hint (hhint : config.hintFits = false) :
    outlet.convert config xsvf s = (.error .capacityOverflow, s) := by
  simp [convert, hhint]

theorem convert_of_error {error : ConversionError} (hhint : config.hintFits = true)
    (hresult : (reorder config.swap xsvf .unbounded).result = .error error) :
    outlet.convert config xsvf s = (.error error, s) := by
  simp [convert, hhint, hresult]

theorem convert_of_limit {error : ConversionError} {size : Nat} (hhint : config.hintFits = true)
    (hresult : (reorder config.swap xsvf .unbounded).result = .ok size)
    (hlimit : config.limitError? size = some error) :
    outlet.convert config xsvf s = (.error error, s) := by
  simp [convert, hhint, hresult, hlimit]

theorem convert_of_pack {size : Nat} (hhint : config.hintFits = true)
    (hresult : (reorder config.swap xsvf .unbounded).result = .ok size)
    (hlimit : config.limitError? size = none) :
    outlet.convert config xsvf s =
      let packed := outlet.pack (reorder config.swap xsvf .unbounded).sink.toList s
      (packed.1.map fun _ => size, packed.2) := by
  simp [convert, hhint, hresult, hlimit]

/-- Either the outlet is as it was, with an error of another stage, or it is as the packing
left it. -/
theorem convert_cases (config : Config) (xsvf : List UInt8) (s : σ) :
    (∃ error, outlet.convert config xsvf s = (.error error, s) ∧ error.isOfPacking = false) ∨
      ∃ size, (reorder config.swap xsvf .unbounded).result = .ok size ∧
        config.limitError? size = none ∧
        outlet.convert config xsvf s =
          let packed := outlet.pack (reorder config.swap xsvf .unbounded).sink.toList s
          (packed.1.map fun _ => size, packed.2) := by
  cases hhint : config.hintFits with
  | false => exact .inl ⟨_, outlet.convert_of_hint s hhint, rfl⟩
  | true =>
    cases hresult : (reorder config.swap xsvf .unbounded).result with
    | error error =>
      exact .inl ⟨_, outlet.convert_of_error s hhint hresult, isOfPacking_of_reorder hresult⟩
    | ok size =>
      cases hlimit : config.limitError? size with
      | some error =>
        exact .inl ⟨_, outlet.convert_of_limit s hhint hresult hlimit,
          isOfPacking_of_limitError hlimit⟩
      | none => exact .inr ⟨size, rfl, hlimit, outlet.convert_of_pack s hhint hresult hlimit⟩

end Outcomes

end Outlet

/-! ## Sinks as outlets -/

theorem Transcript.playFrom_eq_play {α : Type} (result : Except ConversionError α) (sink : Sink)
    (position : Nat) (log : Array LogRecord) (events : List Event) :
    ((playFrom result sink position log events).result,
        (playFrom result sink position log events).sink) =
      Sink.outlet.play result sink events := by
  induction events generalizing sink position log with
  | nil => rfl
  | cons e events ih =>
    cases e with
    | read count => exact ih _ _ _
    | note record => exact ih _ _ _
    | write bytes =>
      cases happend : sink.append bytes with
      | mk grown failure =>
        have houtlet : Sink.outlet.append sink bytes = (grown, failure) := happend
        rw [playFrom, Outlet.play, happend, houtlet]
        cases failure with
        | none => exact ih _ _ _
        | some error => rfl

theorem pack_eq_outlet (data : List UInt8) (sink : Sink) :
    ((Body.pack data sink).result, (Body.pack data sink).sink) = Sink.outlet.pack data sink := by
  rw [pack_eq_noting]
  exact Transcript.playFrom_eq_play _ sink 0 #[] _

theorem isOfPacking_of_pack {data : List UInt8} {sink : Sink} {error : ConversionError}
    (h : (Body.pack data sink).result = .error error) : error.isOfPacking = true := by
  have hsame := congrArg Prod.fst (pack_eq_outlet data sink)
  exact Sink.outlet.isOfPacking_of_pack (hsame.symm.trans h)

theorem convertInto_eq_outlet (config : Config) (xsvf : List UInt8) (sink : Sink) :
    ((convertInto config xsvf sink).result, (convertInto config xsvf sink).sink) =
      Sink.outlet.convert config xsvf sink := by
  cases hhint : config.hintFits with
  | false => rw [convertInto_of_hint sink hhint, Outlet.convert_of_hint _ sink hhint]
  | true =>
    cases hresult : (reorder config.swap xsvf .unbounded).result with
    | error error =>
      rw [convertInto_of_error sink hhint hresult, Outlet.convert_of_error _ sink hhint hresult]
    | ok size =>
      cases hlimit : config.limitError? size with
      | some error =>
        rw [convertInto_of_limit sink hhint hresult hlimit,
          Outlet.convert_of_limit _ sink hhint hresult hlimit]
      | none =>
        rw [convertInto_of_pack sink hhint hresult hlimit,
          Outlet.convert_of_pack _ sink hhint hresult hlimit, ← pack_eq_outlet]

/-! ## What is left in an outlet -/

/-- What a conversion gives, and what it leaves of the outlet it was given. -/
structure Staged {σ : Type} (outlet : Outlet σ) (config : Config) (xsvf : List UInt8) (s : σ)
    (run : Except ConversionError Nat × σ) : Prop where
  /-- The errors of the other stages leave the outlet as it was. -/
  untouched : ∀ error, run.1 = .error error → error.isOfPacking = false → run.2 = s
  /-- Otherwise the program was accepted within the limit, and the outlet is as packing it
  leaves it: everything that is written stands behind the content, or the front of it that
  was taken before the outlet refused. -/
  packed : (∀ error, run.1 = .error error → error.isOfPacking = true) →
    ∃ size, (reorder config.swap xsvf .unbounded).result = .ok size ∧
      (∀ limit, config.bufferLimit = some limit → size ≤ limit) ∧
      let swapped := (reorder config.swap xsvf .unbounded).sink.toList
      run.2 = (outlet.pack swapped s).2 ∧
        (run.1 = (Body.pack swapped .unbounded).result.map (fun _ => size) ∧
            outlet.content run.2 =
              outlet.content s ++ (Body.pack swapped .unbounded).sink.toList ∨
          (∃ held, run.1 = .error (.sinkFull held)) ∧
            ∃ front, front <+: (Body.pack swapped .unbounded).sink.toList ∧
              outlet.content run.2 = outlet.content s ++ front)
  /-- A program that is not accepted fails as such, whatever the limit and the outlet. -/
  reordering_first : config.capacityHint < 2 ^ 63 → ∀ error,
    (reorder config.swap xsvf .unbounded).result = .error error → run.1 = .error error
  /-- A program beyond the limit fails as such, whatever the packing and the outlet. -/
  limit_next : config.capacityHint < 2 ^ 63 → ∀ size limit,
    (reorder config.swap xsvf .unbounded).result = .ok size →
      config.bufferLimit = some limit → limit < size →
        run.1 = .error (.unsupportedSize (.bufferLimit limit size))
  no_room : 2 ^ 63 ≤ config.capacityHint → run.1 = .error .capacityOverflow

theorem staged_convert {σ : Type} (outlet : Outlet σ) (config : Config) (xsvf : List UInt8)
    (s : σ) : Staged outlet config xsvf s (outlet.convert config xsvf s) where
  untouched := by
    intro error herror hother
    rcases outlet.convert_cases config xsvf s with ⟨other, hrun, -⟩ | ⟨size, -, -, hrun⟩
    · rw [hrun]
    · rw [hrun] at herror
      have hpacking := outlet.isOfPacking_of_pack (eq_error_of_map herror)
      rw [hother] at hpacking
      cases hpacking
  packed := by
    intro hpacking
    rcases outlet.convert_cases config xsvf s with ⟨other, hrun, hother⟩ |
      ⟨size, hresult, hlimit, hrun⟩
    · have hother' := hpacking other (congrArg Prod.fst hrun)
      rw [hother] at hother'
      cases hother'
    · refine ⟨size, hresult, Config.limitError?_eq_none_iff.mp hlimit, ?_⟩
      rw [hrun]
      refine ⟨rfl, ?_⟩
      rcases outlet.pack_cases (reorder config.swap xsvf .unbounded).sink.toList s with
        ⟨hwhole, hcontent⟩ | ⟨⟨held, hrefused⟩, hfront⟩
      · exact .inl ⟨congrArg (Except.map fun _ => size) hwhole, hcontent⟩
      · exact .inr ⟨⟨held, congrArg (Except.map fun _ => size) hrefused⟩, hfront⟩
  reordering_first := by
    intro hhint error hresult
    rw [outlet.convert_of_error s (Config.hintFits_iff.mpr hhint) hresult]
  limit_next := by
    intro hhint size limit hresult hlimit hbeyond
    have herror := Config.limitError?_of_lt hlimit hbeyond
    rw [outlet.convert_of_limit s (Config.hintFits_iff.mpr hhint) hresult herror]
  no_room := by
    intro hhint
    have hnone : config.hintFits = false := by
      rw [← Bool.not_eq_true, Config.hintFits_iff]
      omega
    rw [outlet.convert_of_hint s hnone]

/-- The error of a conversion tells of which stage it is, and with that whether the sink was
touched: only packing writes, and only a program that was accepted within the limit is
packed.  So it is for the bounded sinks, and for whatever else takes output. -/
theorem only_packing_touches_sink (config : Config) (xsvf : List UInt8) :
    (∀ sink : Sink, Staged Sink.outlet config xsvf sink
      ((convertInto config xsvf sink).result, (convertInto config xsvf sink).sink)) ∧
    ∀ (σ : Type) (outlet : Outlet σ) (s : σ),
      Staged outlet config xsvf s (outlet.convert config xsvf s) := by
  constructor
  · intro sink
    rw [convertInto_eq_outlet]
    exact staged_convert Sink.outlet config xsvf sink
  · intro σ outlet s
    exact staged_convert outlet config xsvf s

end SerialVector
