/-
The playback limit.

A limit is looked at once, between the two stages of a conversion.  It stops the programs
that need more bytes for a compare, with an error of its own that neither stage knows, and
every other conversion goes as it would without a limit.
-/
import SerialVector.Proofs.Conversion.Lossless
import SerialVector.Proofs.Conversion.Stages
import SerialVector.Proofs.Program.BufferSize

namespace SerialVector

section Limit

variable {config : Config} {xsvf : List UInt8} {commands : List Command}
  (h : Program.Spells xsvf commands) (sink : Sink)
include h

/-- All that matters of a limit is whether it stops the program. -/
theorem convertInto_congr {other : Config} (hswap : other.swap = config.swap)
    (hhint : other.capacityHint = config.capacityHint)
    (hlimit : config.limitError? (Program.bufferSize commands) = none)
    (hotherLimit : other.limitError? (Program.bufferSize commands) = none) :
    convertInto config xsvf sink = convertInto other xsvf sink := by
  have hresult := result_reorder_of_spells h
  have hfits : other.hintFits = config.hintFits := by
    rw [Config.hintFits, Config.hintFits, hhint]
  cases hconfig : config.hintFits with
  | false =>
    rw [convertInto_of_hint sink hconfig, convertInto_of_hint sink (hfits.trans hconfig)]
  | true =>
    rw [convertInto_of_pack sink hconfig (hresult _) hlimit,
      convertInto_of_pack sink (hfits.trans hconfig) (hresult _) hotherLimit, hswap]

theorem result_convertInto_of_beyond {limit : Nat} (hhint : config.hintFits = true)
    (hlimit : config.bufferLimit = some limit) (hbeyond : limit < Program.bufferSize commands) :
    (convertInto config xsvf sink).result =
      .error (.unsupportedSize (.bufferLimit limit (Program.bufferSize commands))) := by
  have hresult := result_reorder_of_spells h config.swap
  rw [convertInto_of_limit sink hhint hresult (Config.limitError?_of_lt hlimit hbeyond)]

theorem result_convertInto_ne_bufferLimit
    (hlimit : config.limitError? (Program.bufferSize commands) = none) (limit got : Nat) :
    (convertInto config xsvf sink).result ≠
      .error (.unsupportedSize (.bufferLimit limit got)) := by
  have hresult := result_reorder_of_spells h config.swap
  intro heq
  cases hhint : config.hintFits with
  | false =>
    rw [convertInto_of_hint sink hhint] at heq
    cases heq
  | true =>
    rw [convertInto_of_pack sink hhint hresult hlimit] at heq
    cases isOfPacking_of_pack (eq_error_of_map heq)

/-- A limit stops a program exactly if the program needs more. -/
theorem result_convertInto_eq_bufferLimit_iff {limit : Nat} (hhint : config.hintFits = true)
    (hlimit : config.bufferLimit = some limit) :
    (convertInto config xsvf sink).result =
        .error (.unsupportedSize (.bufferLimit limit (Program.bufferSize commands))) ↔
      limit < Program.bufferSize commands := by
  constructor
  · intro hstopped
    apply Nat.lt_of_not_le
    intro hwithin
    have hnone := Config.limitError?_of_le hlimit hwithin
    exact result_convertInto_ne_bufferLimit h sink hnone limit _ hstopped
  · exact result_convertInto_of_beyond h sink hhint hlimit

end Limit

/-- The size of the buffer is that of the largest compare, each of which goes by the vector
size set last before it.  Nothing else of a program counts, and neither does the order of
the compares.  A limit stops the programs that need more and does nothing to the others,
but it is not looked at where no room can be made at all, which is taken to be so for hints of
`2 ^ 63` bytes and more and for no others. -/
theorem buffer_is_that_of_largest_compare {swap : Bool} {xsvf : List UInt8} {size : Nat}
    (h : (reorder swap xsvf .unbounded).result = .ok size) :
    ∃ commands, Program.Spells xsvf commands ∧
      (∀ bits, Program.ComparesUnder commands bits → bytesForBits bits ≤ size) ∧
      ((∃ bits, Program.ComparesUnder commands bits ∧ size = bytesForBits bits) ∨
        (∀ c ∈ commands, c.isCompare = false) ∧ size = 0) ∧
      size ≤ 128 ∧
      (∀ swap' other others, Program.Spells other others →
        (others.map Command.withoutShift = commands.map Command.withoutShift ∨
          ∀ bytes, bytes ∈ Program.compareSizes 0 others ↔
            bytes ∈ Program.compareSizes 0 commands) →
        (reorder swap' other .unbounded).result = .ok size) ∧
      ∀ (config : Config) (limit : Nat) (sink : Sink),
        (config.capacityHint < 2 ^ 63 →
          ((convertInto { config with bufferLimit := some limit } xsvf sink).result =
            .error (.unsupportedSize (.bufferLimit limit size)) ↔ limit < size)) ∧
        (size ≤ limit ∨ 2 ^ 63 ≤ config.capacityHint →
          convertInto { config with bufferLimit := some limit } xsvf sink =
            convertInto { config with bufferLimit := none } xsvf sink) := by
  obtain ⟨commands, hcommands⟩ := exists_spells_of_reorder_ok h
  have hsize : size = Program.bufferSize commands := by
    rw [result_reorder_of_spells hcommands] at h
    exact (Except.ok.inj h).symm
  refine ⟨commands, hcommands, ?_, ?_, ?_, ?_, ?_⟩
  · intro bits hbits
    rw [hsize]
    apply Program.compareSize_le_bufferSize hcommands.1
    exact Program.mem_compareSizes_iff_comparesUnder.mpr ⟨bits, hbits, rfl⟩
  · rw [hsize]
    rcases Program.bufferSize_cases hcommands.1 with hmem | ⟨hnil, hzero⟩
    · exact .inl (Program.mem_compareSizes_iff_comparesUnder.mp hmem)
    · exact .inr ⟨Program.not_compare_of_compareSizes_nil hnil, hzero⟩
  · rw [hsize]
    exact Program.bufferSize_le hcommands.1
  · intro swap' other others hothers hsame
    have hsizes : ∀ bytes, bytes ∈ Program.compareSizes 0 others ↔
        bytes ∈ Program.compareSizes 0 commands := by
      rcases hsame with hshifts | hsizes
      · intro bytes
        rw [← Program.compareSizes_withoutShift, hshifts, Program.compareSizes_withoutShift]
      · exact hsizes
    rw [result_reorder_of_spells hothers, hsize,
      Program.bufferSize_of_same_sizes hcommands.1 hothers.1 hsizes]
  · intro config limit sink
    have hlimit : Config.bufferLimit { config with bufferLimit := some limit } = some limit := rfl
    have hfits (most : Option Nat) :
        Config.hintFits { config with bufferLimit := most } = config.hintFits := rfl
    rw [hsize]
    constructor
    · intro hhint
      have hroom := (hfits (some limit)).trans (Config.hintFits_iff.mpr hhint)
      exact result_convertInto_eq_bufferLimit_iff hcommands sink hroom hlimit
    · rintro (hwithin | hhint)
      · exact convertInto_congr hcommands sink rfl rfl (Config.limitError?_of_le hlimit hwithin) rfl
      · have hnone : config.hintFits = false := by
          rw [← Bool.not_eq_true, Config.hintFits_iff]
          omega
        rw [convertInto_of_hint sink ((hfits (some limit)).trans hnone),
          convertInto_of_hint sink ((hfits none).trans hnone)]

/-- Four bytes are shifted behind the compares of three bytes and of one. -/
theorem wider_shift_does_not_count :
    let xsvf := [0x08, 0x00, 0x00, 0x00, 0x18, 0x09, 0x01, 0x02, 0x03, 0x04, 0x05, 0x06, 0x08, 0x00,
      0x00, 0x00, 0x20, 0x0C, 0x01, 0x02, 0x03, 0x04, 0x08, 0x00, 0x00, 0x00, 0x04, 0x01, 0x0F, 0x00]
    (reorder true xsvf .unbounded).result = .ok 3 ∧
      (convertInto ⟨true, 0, some 2⟩ xsvf .unbounded).result =
        .error (.unsupportedSize (.bufferLimit 2 3)) ∧
      convertInto ⟨true, 0, some 3⟩ xsvf .unbounded =
        convertInto ⟨true, 0, none⟩ xsvf .unbounded := by
  intro xsvf
  have h : (reorder true xsvf .unbounded).result = .ok 3 := by decide +kernel
  obtain ⟨commands, -, -, -, -, -, hlimits⟩ := buffer_is_that_of_largest_compare h
  have hbeyond := (hlimits ⟨true, 0, none⟩ 2 .unbounded).1 (by decide)
  have hwithin := (hlimits ⟨true, 0, none⟩ 3 .unbounded).2 (.inl (by decide))
  exact ⟨h, hbeyond.mpr (by decide), hwithin⟩

/-- Where no room can be made, a limit that the program exceeds is not looked at. -/
theorem capacity_comes_before_limit :
    let xsvf := [0x08, 0x00, 0x00, 0x00, 0x01, 0x01, 0xFF, 0x00]
    (reorder true xsvf .unbounded).result = .ok 1 ∧
      ¬ ((convertInto ⟨true, 2 ^ 63, some 0⟩ xsvf .unbounded).result =
          .error (.unsupportedSize (.bufferLimit 0 1)) ↔ 0 < 1) := by
  intro xsvf
  have h : (reorder true xsvf .unbounded).result = .ok 1 := by decide +kernel
  have hhint : Config.hintFits ⟨true, 2 ^ 63, some 0⟩ = false := by decide
  refine ⟨h, ?_⟩
  rw [convertInto_of_hint .unbounded hhint]
  intro hstops
  cases hstops.mpr (by decide)

end SerialVector
