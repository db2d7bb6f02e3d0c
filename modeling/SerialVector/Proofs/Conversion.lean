/-
Conversions that succeed.

A body is read back into the program it was packed from, because the order of play
begins with a zero only if nothing but the mark of the end is left of the program.
Bytes in general need not read back.
-/
import SerialVector.Conversion
import SerialVector.Proofs.Body.ReadBack
import SerialVector.Proofs.Program.Translation

namespace SerialVector

/-! ## What a configuration asks for -/

namespace Config

variable {config : Config} {size : Nat}

theorem hintFits_iff : config.hintFits = true ↔ config.capacityHint < 2 ^ 63 := by
  have hbound : capacityBound = 2 ^ 63 := by decide
  rw [hintFits, hbound, decide_eq_true_iff]

theorem limitError?_eq_none_iff :
    config.limitError? size = none ↔ ∀ limit, config.bufferLimit = some limit → size ≤ limit := by
  unfold limitError?
  cases config.bufferLimit with
  | none => simp
  | some limit => simp

theorem limitError?_of_le {limit : Nat} (h : config.bufferLimit = some limit)
    (hle : size ≤ limit) : config.limitError? size = none := by
  simp only [limitError?, h, if_neg (Nat.not_lt.mpr hle)]

theorem limitError?_of_lt {limit : Nat} (h : config.bufferLimit = some limit)
    (hlt : limit < size) :
    config.limitError? size = some (.unsupportedSize (.bufferLimit limit size)) := by
  simp only [limitError?, h, if_pos hlt]

theorem exists_of_limitError? {error : ConversionError}
    (h : config.limitError? size = some error) :
    ∃ limit, config.bufferLimit = some limit ∧ limit < size ∧
      error = .unsupportedSize (.bufferLimit limit size) := by
  cases hlimit : config.bufferLimit with
  | none =>
    rw [limitError?_eq_none_iff.mpr (by simp [hlimit])] at h
    cases h
  | some limit =>
    by_cases hlt : limit < size
    · rw [limitError?_of_lt hlimit hlt] at h
      cases h
      exact ⟨limit, rfl, hlt, rfl⟩
    · rw [limitError?, hlimit] at h
      simp only [hlt, if_false, reduceCtorEq] at h

end Config

/-! ## What a conversion comes to -/

section Outcomes

variable {config : Config} {xsvf : List UInt8} (sink : Sink)

theorem convertInto_of_hint (hhint : config.hintFits = false) :
    convertInto config xsvf sink = ⟨.error .capacityOverflow, sink, 0, []⟩ := by
  simp [convertInto, hhint]

theorem convertInto_of_error {error : ConversionError} (hhint : config.hintFits = true)
    (hresult : (reorder config.swap xsvf .unbounded).result = .error error) :
    convertInto config xsvf sink =
      ⟨.error error, sink, (reorder config.swap xsvf .unbounded).position,
        (reorder config.swap xsvf .unbounded).log⟩ := by
  simp [convertInto, hhint, hresult]

theorem convertInto_of_limit {error : ConversionError} {size : Nat}
    (hhint : config.hintFits = true)
    (hresult : (reorder config.swap xsvf .unbounded).result = .ok size)
    (hlimit : config.limitError? size = some error) :
    convertInto config xsvf sink =
      ⟨.error error, sink, (reorder config.swap xsvf .unbounded).position,
        (reorder config.swap xsvf .unbounded).log⟩ := by
  simp [convertInto, hhint, hresult, hlimit]

theorem convertInto_of_pack {size : Nat} (hhint : config.hintFits = true)
    (hresult : (reorder config.swap xsvf .unbounded).result = .ok size)
    (hlimit : config.limitError? size = none) :
    convertInto config xsvf sink =
      let packed := Body.pack (reorder config.swap xsvf .unbounded).sink.toList sink
      ⟨packed.result.map fun _ => size, packed.sink,
        (reorder config.swap xsvf .unbounded).position,
        (reorder config.swap xsvf .unbounded).log ++ packed.log⟩ := by
  simp [convertInto, hhint, hresult, hlimit]

end Outcomes

/-- What a conversion needs to succeed, and what it then gives. -/
theorem convert_eq_ok_iff {config : Config} {xsvf : List UInt8} {conversion : Conversion} :
    (convert config xsvf).result = .ok conversion ↔
      let reordered := reorder config.swap xsvf .unbounded
      let packed := Body.pack reordered.sink.toList .unbounded
      config.hintFits = true ∧ reordered.result = .ok conversion.bufferSize ∧
        config.limitError? conversion.bufferSize = none ∧ packed.result = .ok () ∧
          conversion.body = packed.sink.toList := by
  obtain ⟨body, bufferSize⟩ := conversion
  simp only [convert, convertInto]
  by_cases hhint : config.hintFits = true
  · rw [if_pos hhint]
    cases (reorder config.swap xsvf .unbounded).result with
    | error error => simp [Except.map]
    | ok size =>
      cases hlimit : config.limitError? size with
      | some error =>
        simp only [hlimit, Except.map, Except.ok.injEq, reduceCtorEq, false_iff]
        rintro ⟨-, rfl, hnone, -⟩
        rw [hlimit] at hnone
        cases hnone
      | none =>
        cases (Body.pack (reorder config.swap xsvf .unbounded).sink.toList
            .unbounded).result with
        | error error => simp [hlimit, Except.map]
        | ok done =>
          simp only [hlimit, hhint, Except.map, Except.ok.injEq, Conversion.mk.injEq,
            true_and]
          constructor
          · rintro ⟨rfl, rfl⟩
            exact ⟨rfl, hlimit, rfl⟩
          · rintro ⟨rfl, -, rfl⟩
            exact ⟨rfl, rfl⟩
  · rw [if_neg hhint]
    simp [hhint, Except.map]

/-! ## The front and the end of the order of play -/

theorem Command.translation_cases {size : Nat} {c : Command} (h : c.WellFormed size)
    (swap : Bool) :
    c.translation swap = [] ∨ ∃ b rest, c.translation swap = b :: rest ∧ b ≠ 0 := by
  cases c with
  | repeats count => exact .inl rfl
  | endIr value => exact .inl rfl
  | endDr value => exact .inl rfl
  | raw opcode operand =>
    refine .inr ⟨opcode, _, rfl, ?_⟩
    rcases h.1 with rfl | rfl | rfl <;> decide
  | tdoMask mask => exact .inr ⟨_, _, rfl, by decide⟩
  | sir bits value => exact .inr ⟨_, _, rfl, by decide⟩
  | runTest clocks => exact .inr ⟨_, _, rfl, by decide⟩
  | sdrSize bits => exact .inr ⟨_, _, rfl, by decide⟩
  | sdrTdo tdi tdo => exact .inr ⟨_, _, rfl, by decide⟩
  | state value => exact .inr ⟨_, _, rfl, by decide⟩

namespace Program

theorem translation_cases {size : Nat} {commands : List Command} (h : WellFormed size commands)
    (swap : Bool) :
    translation swap commands = [0] ∨
      ∃ b rest, translation swap commands = b :: rest ∧ b ≠ 0 := by
  induction commands generalizing size with
  | nil => exact .inl rfl
  | cons c commands ih =>
    rw [translation_cons]
    rcases Command.translation_cases h.1 swap with hnil | ⟨b, rest, hcons, hb⟩
    · rw [hnil]
      exact ih h.2
    · rw [hcons]
      exact .inr ⟨b, rest ++ translation swap commands, rfl, hb⟩

theorem getLast?_translation (swap : Bool) (commands : List Command) :
    (translation swap commands).getLast? = some 0 := by
  rw [translation, List.getLast?_concat]

theorem leadingZeros_translation_le {size : Nat} {commands : List Command}
    (h : WellFormed size commands) (swap : Bool) :
    Segment.leadingZeros (translation swap commands) ≤ 1 := by
  rcases translation_cases h swap with hone | ⟨b, rest, hcons, hb⟩
  · rw [hone]
    decide
  · rw [hcons]
    simp [Segment.leadingZeros, hb]

/-- A length of zero means that nothing was left to write of the program. -/
theorem eq_of_zero_length {size : Nat} {commands : List Command} (h : WellFormed size commands)
    (swap : Bool) {s : Segment} (hs : s ∈ segments (translation swap commands))
    (hzero : s.chunk.length = 0 ∨ s.run = 0) : translation swap commands = [0] := by
  rcases translation_cases h swap with hone | ⟨b, rest, hcons, hb⟩
  · exact hone
  · rcases hzero with hchunk | hrun
    · rw [hcons] at hs
      have hne := Segment.chunk_ne_nil_of_short_front (Nat.zero_le _) hb rest s hs
      exact absurd (List.eq_nil_of_length_eq_zero hchunk) hne
    · exact absurd hrun (Segment.run_ne_zero_of_getLast? (getLast?_translation swap commands) s hs)

end Program

/-- Reading a converted body gives the order of play.  A zero is written as a length
only for a program of which nothing but the mark of its end is left. -/
theorem converted_reads_back {config : Config} {xsvf : List UInt8} {conversion : Conversion}
    (h : (convert config xsvf).result = .ok conversion) :
    let swapped := (reorder config.swap xsvf .unbounded).sink.toList
    (reorder config.swap xsvf .unbounded).result = .ok conversion.bufferSize ∧
      Body.expand conversion.body = .ok swapped ∧
      conversion.body = Body.header :: (segments swapped).flatMap (fun s =>
        Body.encodeLength s.chunk.length ++ s.chunk ++ Body.encodeLength s.run) ∧
      ((∃ s ∈ segments swapped, s.chunk.length = 0 ∨ s.run = 0) → swapped = [0]) := by
  intro swapped
  obtain ⟨-, hreordered, -, hpacked, hbody⟩ := convert_eq_ok_iff.mp h
  obtain ⟨commands, ignored, hcommands, rfl⟩ := exists_of_reorder_ok hreordered
  have hswapped : swapped = Program.translation config.swap commands :=
    toList_reorder_encode hcommands config.swap ignored
  have hencode : conversion.body = Body.encode (segments swapped) :=
    hbody.trans (Body.toList_pack_of_ok hpacked)
  have hzeros : Segment.leadingZeros swapped ≤ 8 := by
    rw [hswapped]
    exact Nat.le_trans (Program.leadingZeros_translation_le hcommands config.swap) (by decide)
  refine ⟨hreordered, ?_, hencode, ?_⟩
  · rw [hencode]
    exact Body.expand_encode_of_clear (Body.clear_of_leadingZeros (.inl hzeros))
      (Body.fits_of_pack_ok hpacked)
  · rintro ⟨s, hs, hzero⟩
    rw [hswapped] at hs ⊢
    exact Program.eq_of_zero_length hcommands config.swap hs hzero

/-- A mask of two bytes, as a player reads it. -/
theorem mask_program_reads_back :
    let xsvf := [0x08, 0x00, 0x00, 0x00, 0x10, 0x01, 0x12, 0x34, 0x00]
    let body := [0x00, 0x06, 0x08, 0x00, 0x10, 0x01, 0x34, 0x12, 0x01]
    (convert .standard xsvf).result = .ok ⟨body, 2⟩ ∧
      Body.expand body = .ok (reorder true xsvf .unbounded).sink.toList := by
  intro xsvf body
  have h : (convert .standard xsvf).result = .ok ⟨body, 2⟩ := by decide +kernel
  exact ⟨h, (converted_reads_back h).2.1⟩

end SerialVector
