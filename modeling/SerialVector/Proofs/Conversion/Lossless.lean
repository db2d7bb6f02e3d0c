/-
What two conversions have in common.

Two programs come out as the same bytes exactly if a player sees the same commands in
both, and the same holds of their bodies.  Retry counts and the states to end shifts in
are all that is lost.
-/
import SerialVector.Proofs.Conversion
import SerialVector.Proofs.Program.Played

namespace SerialVector

/-- At the front of the bytes stands a whole program of these commands. -/
def Program.Spells (xsvf : List UInt8) (commands : List Command) : Prop :=
  WellFormed 0 commands ∧ ∃ ignored, xsvf = encode commands ++ ignored

section Spells

variable {xsvf : List UInt8} {commands : List Command} (h : Program.Spells xsvf commands)
include h

theorem result_reorder_of_spells (swap : Bool) :
    (reorder swap xsvf .unbounded).result = .ok (Program.bufferSize commands) := by
  obtain ⟨hcommands, ignored, rfl⟩ := h
  exact result_reorder_encode hcommands swap ignored

theorem toList_reorder_of_spells (swap : Bool) :
    (reorder swap xsvf .unbounded).sink.toList = Program.translation swap commands := by
  obtain ⟨hcommands, ignored, rfl⟩ := h
  exact toList_reorder_encode hcommands swap ignored

end Spells

theorem exists_spells_of_reorder_ok {swap : Bool} {xsvf : List UInt8} {size : Nat}
    (h : (reorder swap xsvf .unbounded).result = .ok size) :
    ∃ commands, Program.Spells xsvf commands := by
  obtain ⟨commands, ignored, hcommands, hxsvf⟩ := exists_of_reorder_ok h
  exact ⟨commands, hcommands, ignored, hxsvf⟩

/-- A conversion sees of a program what the order of play leaves of it. -/
theorem result_convert_congr {config : Config} {xsvf other : List UInt8}
    (hresult : (reorder config.swap xsvf .unbounded).result =
      (reorder config.swap other .unbounded).result)
    (houtput : (reorder config.swap xsvf .unbounded).sink.toList =
      (reorder config.swap other .unbounded).sink.toList) :
    (convert config xsvf).result = (convert config other).result := by
  cases hhint : config.hintFits with
  | false => simp only [convert, convertInto_of_hint _ hhint]
  | true =>
    cases hxsvf : (reorder config.swap xsvf .unbounded).result with
    | error error =>
      have hother := hresult.symm.trans hxsvf
      simp only [convert, convertInto_of_error _ hhint hxsvf, convertInto_of_error _ hhint hother]
    | ok size =>
      have hother := hresult.symm.trans hxsvf
      cases hlimit : config.limitError? size with
      | some error =>
        simp only [convert, convertInto_of_limit _ hhint hxsvf hlimit,
          convertInto_of_limit _ hhint hother hlimit]
      | none =>
        simp only [convert, convertInto_of_pack _ hhint hxsvf hlimit,
          convertInto_of_pack _ hhint hother hlimit, houtput]

/-- The order of play survives packing. -/
theorem expand_pack_translation {commands : List Command} {swap : Bool}
    (h : Program.WellFormed 0 commands)
    (hpacked : (Body.pack (Program.translation swap commands) .unbounded).result = .ok ()) :
    Body.expand (Body.pack (Program.translation swap commands) .unbounded).sink.toList =
      .ok (Program.translation swap commands) := by
  have hzeros := Program.leadingZeros_translation_le h swap
  rw [Body.toList_pack_of_ok hpacked]
  exact Body.expand_encode_of_clear (Body.clear_of_leadingZeros (.inl (by omega)))
    (Body.fits_of_pack_ok hpacked)

section Convert

variable {config : Config} {xsvf other : List UInt8} {commands others : List Command}
  (h : Program.Spells xsvf commands) (hother : Program.Spells other others)
include h

theorem bufferSize_of_convert_ok {conversion : Conversion}
    (hok : (convert config xsvf).result = .ok conversion) :
    conversion.bufferSize = Program.bufferSize commands := by
  obtain ⟨-, hresult, -⟩ := convert_eq_ok_iff.mp hok
  rw [result_reorder_of_spells h] at hresult
  exact (Except.ok.inj hresult).symm

theorem expand_of_convert_ok {conversion : Conversion}
    (hok : (convert config xsvf).result = .ok conversion) :
    Body.expand conversion.body = .ok (Program.translation config.swap commands) := by
  obtain ⟨-, -, -, hpacked, hbody⟩ := convert_eq_ok_iff.mp hok
  rw [toList_reorder_of_spells h] at hpacked hbody
  rw [hbody]
  exact expand_pack_translation h.1 hpacked

include hother

/-- A conversion looks at the commands that are played and at nothing else. -/
theorem result_convert_of_played (hplayed : Program.played commands = Program.played others) :
    (convert config xsvf).result = (convert config other).result := by
  have htranslation : Program.translation config.swap commands =
      Program.translation config.swap others :=
    (Program.translation_eq_iff h.1 hother.1 config.swap).mpr hplayed
  have hsize : Program.bufferSize commands = Program.bufferSize others := by
    rw [← Program.bufferSize_played commands, hplayed, Program.bufferSize_played]
  apply result_convert_congr
  · rw [result_reorder_of_spells h, result_reorder_of_spells hother, hsize]
  · rw [toList_reorder_of_spells h, toList_reorder_of_spells hother, htranslation]

theorem body_eq_iff {conversion otherConversion : Conversion}
    (hok : (convert config xsvf).result = .ok conversion)
    (hotherOk : (convert config other).result = .ok otherConversion) :
    conversion.body = otherConversion.body ↔
      Program.played commands = Program.played others := by
  constructor
  · intro hbody
    have hexpand := expand_of_convert_ok h hok
    rw [hbody, expand_of_convert_ok hother hotherOk] at hexpand
    exact (Program.translation_eq_iff h.1 hother.1 config.swap).mp (Except.ok.inj hexpand).symm
  · intro hplayed
    rw [result_convert_of_played h hother hplayed, hotherOk] at hok
    rw [Except.ok.inj hok]

end Convert

/-- The body of a conversion expands to the order of play of the program. -/
theorem expand_of_result_convert {config : Config} {xsvf : List UInt8} {conversion : Conversion}
    (h : (convert config xsvf).result = .ok conversion) :
    (reorder config.swap xsvf .unbounded).result = .ok conversion.bufferSize ∧
      Body.expand conversion.body = .ok (reorder config.swap xsvf .unbounded).sink.toList := by
  obtain ⟨-, hreordered, -⟩ := convert_eq_ok_iff.mp h
  obtain ⟨commands, hcommands⟩ := exists_spells_of_reorder_ok hreordered
  rw [toList_reorder_of_spells hcommands]
  exact ⟨hreordered, expand_of_convert_ok hcommands h⟩

/-- Nothing of a program is lost but the commands that are not played.  Two programs that
are accepted have one translation, or one body, exactly if their played commands are the
same, and the buffer sizes then agree as well.  So commands that are not played may be put
in or taken out at any place, and bytes behind the end changed, without a difference to
the conversion. -/
theorem only_unplayed_commands_are_lost {swap : Bool} {xsvf other : List UInt8}
    {size otherSize : Nat} (h : (reorder swap xsvf .unbounded).result = .ok size)
    (hother : (reorder swap other .unbounded).result = .ok otherSize) :
    (∃ commands others, Program.Spells xsvf commands ∧ Program.Spells other others) ∧
    (∀ commands others, Program.Spells xsvf commands → Program.Spells other others →
      ((reorder swap xsvf .unbounded).sink.toList = (reorder swap other .unbounded).sink.toList ↔
        Program.played commands = Program.played others) ∧
      (Program.played commands = Program.played others → size = otherSize) ∧
      ∀ config conversion otherConversion, (convert config xsvf).result = .ok conversion →
        (convert config other).result = .ok otherConversion →
        (conversion.body = otherConversion.body ↔
          Program.played commands = Program.played others) ∧
        (Program.played commands = Program.played others →
          conversion.bufferSize = otherConversion.bufferSize)) ∧
    ∀ front dropped back, Program.played dropped = [] →
      (Program.WellFormed 0 (front ++ dropped ++ back) ↔
        Program.WellFormed (Program.sizeAfter 0 front) dropped ∧
          Program.WellFormed 0 (front ++ back)) ∧
      (Program.WellFormed 0 (front ++ dropped ++ back) → ∀ config ignored rest,
        (convert config (Program.encode (front ++ dropped ++ back) ++ ignored)).result =
          (convert config (Program.encode (front ++ back) ++ rest)).result) := by
  refine ⟨?_, ?_, ?_⟩
  · obtain ⟨commands, hcommands⟩ := exists_spells_of_reorder_ok h
    obtain ⟨others, hothers⟩ := exists_spells_of_reorder_ok hother
    exact ⟨commands, others, hcommands, hothers⟩
  · intro commands others hcommands hothers
    rw [result_reorder_of_spells hcommands] at h
    rw [result_reorder_of_spells hothers] at hother
    have hsize : Program.played commands = Program.played others →
        Program.bufferSize commands = Program.bufferSize others := by
      intro hplayed
      rw [← Program.bufferSize_played commands, hplayed, Program.bufferSize_played]
    refine ⟨?_, ?_, ?_⟩
    · rw [toList_reorder_of_spells hcommands, toList_reorder_of_spells hothers]
      exact Program.translation_eq_iff hcommands.1 hothers.1 swap
    · rw [← Except.ok.inj h, ← Except.ok.inj hother]
      exact hsize
    · intro config conversion otherConversion hok hotherOk
      rw [bufferSize_of_convert_ok hcommands hok, bufferSize_of_convert_ok hothers hotherOk]
      exact ⟨body_eq_iff hcommands hothers hok hotherOk, hsize⟩
  · intro front dropped back hdropped
    refine ⟨Program.wellFormed_insert hdropped, ?_⟩
    intro hlonger config ignored rest
    have hshorter := ((Program.wellFormed_insert hdropped).mp hlonger).2
    have hplayed : Program.played (front ++ dropped ++ back) = Program.played (front ++ back) := by
      rw [Program.played_append, Program.played_append, Program.played_append, hdropped,
        List.append_nil]
    exact result_convert_of_played ⟨hlonger, ignored, rfl⟩ ⟨hshorter, rest, rfl⟩ hplayed

/-- A retry count in front and bytes behind the end leave no trace. -/
theorem retry_count_is_lost :
    let counted := [0x07, 0x20, 0x12, 0x01, 0x00, 0xDE]
    let plain := [0x12, 0x01, 0x00]
    (reorder true counted .unbounded).result = .ok 0 ∧
      (reorder true plain .unbounded).result = .ok 0 ∧
      Program.Spells counted [.repeats 0x20, .state 1] ∧ Program.Spells plain [.state 1] ∧
      (reorder true counted .unbounded).sink.toList =
        (reorder true plain .unbounded).sink.toList := by
  intro counted plain
  have h : (reorder true counted .unbounded).result = .ok 0 := by decide +kernel
  have hother : (reorder true plain .unbounded).result = .ok 0 := by decide +kernel
  have hcounted : Program.Spells counted [.repeats 0x20, .state 1] :=
    ⟨by decide, [0xDE], by decide⟩
  have hplain : Program.Spells plain [.state 1] := ⟨by decide, [], by decide⟩
  have houtput := ((only_unplayed_commands_are_lost h hother).2.1 _ _ hcounted hplain).1
  exact ⟨h, hother, hcounted, hplain, houtput.mpr (by decide)⟩

end SerialVector
