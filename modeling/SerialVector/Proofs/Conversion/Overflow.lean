/-
Which programs convert.

A program that is accepted and stays within the playback limit fails to convert only where
a chunk is longer than any field says.  A run never is, since no program is played with so
many zeros in a row.
-/
import SerialVector.Proofs.Conversion.Stages
import SerialVector.Proofs.Program.ZeroRuns

namespace SerialVector

section Convert

variable {config : Config} {xsvf : List UInt8}

theorem result_pack_of_lengthOverflow {got : Nat}
    (h : (convert config xsvf).result = .error (.unsupportedSize (.lengthOverflow got))) :
    (∃ size, (reorder config.swap xsvf .unbounded).result = .ok size) ∧
      (Body.pack (reorder config.swap xsvf .unbounded).sink.toList .unbounded).result =
        .error (.unsupportedSize (.lengthOverflow got)) := by
  cases hhint : config.hintFits with
  | false =>
    simp only [convert, convertInto_of_hint _ hhint] at h
    cases h
  | true =>
    cases hresult : (reorder config.swap xsvf .unbounded).result with
    | error error =>
      simp only [convert, convertInto_of_error _ hhint hresult] at h
      cases h
      cases isOfPacking_of_reorder hresult
    | ok size =>
      cases hlimit : config.limitError? size with
      | some error =>
        simp only [convert, convertInto_of_limit _ hhint hresult hlimit] at h
        obtain ⟨limit, -, -, rfl⟩ := Config.exists_of_limitError? hlimit
        cases h
      | none =>
        simp only [convert, convertInto_of_pack _ hhint hresult hlimit] at h
        exact ⟨⟨size, rfl⟩, eq_error_of_map (eq_error_of_map h)⟩

theorem fits_of_chunks {data : List UInt8} (hzeros : ZerosAtMost 257 data)
    (hchunks : ∀ s ∈ segments data, s.chunk.length ≤ Body.maxLength) :
    ∀ s ∈ segments data, Body.fits s = true := by
  intro s hs
  have hrun := hzeros.run_le s hs
  exact Body.fits_iff.mpr ⟨hchunks s hs, Nat.le_trans hrun (by decide)⟩

theorem exists_convert_ok_iff (hhint : config.hintFits = true) :
    (∃ conversion, (convert config xsvf).result = .ok conversion) ↔
      ∃ size, (reorder config.swap xsvf .unbounded).result = .ok size ∧
        (∀ limit, config.bufferLimit = some limit → size ≤ limit) ∧
        ∀ s ∈ segments (reorder config.swap xsvf .unbounded).sink.toList,
          s.chunk.length ≤ Body.maxLength := by
  constructor
  · rintro ⟨conversion, h⟩
    obtain ⟨-, hresult, hlimit, hpacked, -⟩ := convert_eq_ok_iff.mp h
    exact ⟨_, hresult, Config.limitError?_eq_none_iff.mp hlimit,
      fun s hs => (Body.fits_iff.mp (Body.fits_of_pack_ok hpacked s hs)).1⟩
  · rintro ⟨size, hresult, hlimit, hchunks⟩
    have hfits := fits_of_chunks (zerosAtMost_reorder hresult) hchunks
    exact ⟨⟨_, size⟩, convert_eq_ok_iff.mpr ⟨hhint, hresult,
      Config.limitError?_eq_none_iff.mpr hlimit, Body.result_pack_of_fits hfits, rfl⟩⟩

end Convert

/-- A program has 257 zeros in a row at most when it is played, and so whether it converts
is up to the program, the playback limit and the lengths of the chunks.  A length that is
reported to be too great is that of the first chunk that is too long. -/
theorem conversion_stops_at_chunks (config : Config) (xsvf : List UInt8) :
    (∀ swap size, (reorder swap xsvf .unbounded).result = .ok size →
      ∀ front count back, (reorder swap xsvf .unbounded).sink.toList =
        front ++ List.replicate count 0 ++ back → count ≤ 257) ∧
    (config.capacityHint < 2 ^ 63 →
      ((∃ conversion, (convert config xsvf).result = .ok conversion) ↔
        ∃ size, (reorder config.swap xsvf .unbounded).result = .ok size ∧
          (∀ limit, config.bufferLimit = some limit → size ≤ limit) ∧
          ∀ s ∈ segments (reorder config.swap xsvf .unbounded).sink.toList,
            s.chunk.length ≤ 65535)) ∧
    ∀ got, (convert config xsvf).result = .error (.unsupportedSize (.lengthOverflow got)) →
      (∃ front s back, segments (reorder config.swap xsvf .unbounded).sink.toList =
          front ++ s :: back ∧ (∀ t ∈ front, t.chunk.length ≤ 65535) ∧
          s.chunk.length = got ∧ 65535 < got) ∧
        ∀ s ∈ segments (reorder config.swap xsvf .unbounded).sink.toList, s.run < got := by
  refine ⟨fun swap size h => zerosAtMost_reorder h, ?_, ?_⟩
  · intro hhint
    exact exists_convert_ok_iff (Config.hintFits_iff.mpr hhint)
  · intro got h
    obtain ⟨⟨size, hresult⟩, hpacked⟩ := result_pack_of_lengthOverflow h
    have hruns := (zerosAtMost_reorder hresult).run_le
    obtain ⟨front, s, back, hsegments, hfront, hcause⟩ := Body.exists_of_pack_error hpacked
    have hs := hruns s (by rw [hsegments]; exact List.mem_append_right _ List.mem_cons_self)
    unfold Body.maxLength at hcause
    rcases hcause with ⟨hlong, hgot⟩ | ⟨-, hlong, -⟩
    · cases hgot
      refine ⟨⟨front, s, back, hsegments, ?_, rfl, hlong⟩, ?_⟩
      · exact fun t ht => (Body.fits_iff.mp (hfront t ht)).1
      · intro t ht
        have ht' := hruns t ht
        omega
    · omega

/-- The zeros of a vector of 2048 bits and the mark of the end are as many as there can
be. -/
theorem vector_of_zeros_converts :
    let xsvf := [0x08, 0x00, 0x00, 0x08, 0x00, 0x0C] ++ List.replicate 256 0x00 ++ [0x00]
    (reorder true xsvf .unbounded).result = .ok 0 ∧
      (reorder true xsvf .unbounded).sink.toList =
        [0x08, 0x08, 0x00, 0x0C] ++ List.replicate 257 0x00 ++ [] ∧
      (∀ s ∈ segments (reorder true xsvf .unbounded).sink.toList, s.chunk.length ≤ 65535) ∧
      ∃ conversion, (convert .standard xsvf).result = .ok conversion := by
  intro xsvf
  have h : (reorder true xsvf .unbounded).result = .ok 0 := by decide +kernel
  have hchunks : ∀ s ∈ segments (reorder true xsvf .unbounded).sink.toList,
      s.chunk.length ≤ 65535 := by decide +kernel
  refine ⟨h, by decide +kernel, hchunks, ?_⟩
  have hlimit : ∀ limit, Config.standard.bufferLimit = some limit → 0 ≤ limit :=
    fun limit _ => Nat.zero_le limit
  exact ((conversion_stops_at_chunks .standard xsvf).2.1 (by decide)).mpr ⟨0, h, hlimit, hchunks⟩

end SerialVector
