/-
Converted bodies that are cut off.

Every segment of a program has literal bytes and zeros, but for a program of which only
the mark of its end is left.  A converted body that is cut off is therefore read as
`Body.expand_of_cut` says, and its last byte is never missing without an error.
-/
import SerialVector.Proofs.Body.Cut
import SerialVector.Proofs.Conversion

namespace SerialVector

theorem Program.solid_segments {size : Nat} {commands : List Command}
    (h : WellFormed size commands) (swap : Bool) (hne : translation swap commands ≠ [0]) :
    ∀ s ∈ segments (translation swap commands), Body.Solid s := by
  intro s hs
  constructor
  · intro hchunk
    exact hne (eq_of_zero_length h swap hs (.inl (by rw [hchunk]; rfl)))
  · intro hrun
    exact hne (eq_of_zero_length h swap hs (.inr hrun))

/-- The body of the program that is nothing but its end, cut off anywhere. -/
theorem Body.expand_of_cut_end {cut : List UInt8} (hcut : cut <+: encode (segments [0]))
    (hstrict : cut ≠ encode (segments [0])) :
    (∃ error, expand cut = .error error) ∨
      cut.length + 2 ≤ (encode (segments [0])).length ∧
        ∃ out, expand cut = .ok out ∧ out <+: [0] ∧ out ≠ [0] := by
  have hbody : encode (segments [0]) = [0, 0, 1] := by decide +kernel
  rw [hbody] at hcut hstrict ⊢
  have htake := List.prefix_iff_eq_take.mp hcut
  have hle := hcut.length_le
  generalize cut.length = count at htake hle
  subst htake
  match count, hle with
  | 0, _ => exact .inl ⟨.missingHeader, rfl⟩
  | 1, _ => exact .inr ⟨by decide, [], by decide +kernel, by decide, by decide⟩
  | 2, _ => exact .inl ⟨.truncatedLength 2, by cbv⟩
  | 3, _ => exact absurd rfl hstrict

/-- That body has no length of more than one byte. -/
theorem Body.not_splitsLength_end (cut before : List UInt8) (high : UInt8) :
    ¬ SplitsLength [0] cut before high := by
  rintro ⟨front, s, back, low, hsegments, -, hlength, -⟩
  have hone : segments [0] = [⟨[], 1⟩] := Segment.segments_replicate Nat.one_ne_zero
  have hmem : s ∈ segments [0] := by
    rw [hsegments]
    exact List.mem_append_right _ List.mem_cons_self
  rw [hone, List.mem_singleton] at hmem
  have hlong := long_of_encodeLength hlength
  rw [hmem] at hlong
  exact absurd hlong (by decide)

namespace Program

variable {commands : List Command} (h : WellFormed 0 commands) (swap : Bool)
  (hfits : ∀ s ∈ segments (translation swap commands), Body.fits s = true)
include h hfits

theorem expand_of_cut {cut : List UInt8}
    (hcut : cut <+: Body.encode (segments (translation swap commands)))
    (hstrict : cut ≠ Body.encode (segments (translation swap commands))) :
    (∃ error, Body.expand cut = .error error) ∨
      cut.length + 2 ≤ (Body.encode (segments (translation swap commands))).length ∧
        ((∃ out, Body.expand cut = .ok out ∧ out <+: translation swap commands ∧
            out ≠ translation swap commands) ∨
          ∃ before high, Body.SplitsLength (translation swap commands) cut before high) := by
  by_cases hend : translation swap commands = [0]
  · rw [hend] at hcut hstrict ⊢
    rcases Body.expand_of_cut_end hcut hstrict with herror | ⟨hlength, hout⟩
    · exact .inl herror
    · exact .inr ⟨hlength, .inl hout⟩
  · exact Body.expand_of_cut (solid_segments h swap hend) hfits hcut hstrict

theorem expand_of_splitsLength {cut before : List UInt8} {high : UInt8}
    (hsplit : Body.SplitsLength (translation swap commands) cut before high) :
    before <+: translation swap commands ∧
      Body.expand cut = .ok (before ++ List.replicate high.toNat 0) := by
  by_cases hend : translation swap commands = [0]
  · rw [hend] at hsplit
    exact absurd hsplit (Body.not_splitsLength_end cut before high)
  · exact Body.expand_of_splitsLength (solid_segments h swap hend) hfits hsplit

end Program

/-- What is read of a converted body that is cut off.  A missing last byte is noticed.  A
cut between the two bytes of a chunk's length makes up zeros, as many as the first of them
says.  Every other cut is noticed or gives back a front of the order of play that is not
all of it. -/
theorem cut_body_reads {config : Config} {xsvf cut : List UInt8} {conversion : Conversion}
    (h : (convert config xsvf).result = .ok conversion) (hcut : cut <+: conversion.body)
    (hstrict : cut ≠ conversion.body) :
    let swapped := (reorder config.swap xsvf .unbounded).sink.toList
    conversion.body = Body.encode (segments swapped) ∧
      (cut = conversion.body.dropLast → ∃ error, Body.expand cut = .error error) ∧
      ((∀ before high, ¬ Body.SplitsLength swapped cut before high) →
        (∃ error, Body.expand cut = .error error) ∨
          ∃ out, Body.expand cut = .ok out ∧ out <+: swapped ∧ out ≠ swapped) ∧
      ∀ before high, Body.SplitsLength swapped cut before high →
        before <+: swapped ∧
          Body.expand cut = .ok (before ++ List.replicate high.toNat 0) := by
  intro swapped
  obtain ⟨-, hreordered, -, hpacked, hbody⟩ := convert_eq_ok_iff.mp h
  have hfits : ∀ s ∈ segments swapped, Body.fits s = true := Body.fits_of_pack_ok hpacked
  have hencode : conversion.body = Body.encode (segments swapped) :=
    hbody.trans (Body.toList_pack_of_ok hpacked)
  obtain ⟨commands, ignored, hcommands, rfl⟩ := exists_of_reorder_ok hreordered
  have hswapped : swapped = Program.translation config.swap commands :=
    toList_reorder_encode hcommands config.swap ignored
  rw [hencode] at hcut hstrict ⊢
  rw [hswapped] at hfits hcut hstrict ⊢
  have hread := Program.expand_of_cut hcommands config.swap hfits hcut hstrict
  refine ⟨rfl, ?_, ?_, ?_⟩
  · intro hlast
    rcases hread with herror | ⟨hlength, -⟩
    · exact herror
    · -- Only one byte is missing.
      rw [hlast, List.length_dropLast] at hlength
      omega
  · intro hnone
    rcases hread with herror | ⟨-, hout | ⟨before, high, hsplit⟩⟩
    · exact .inl herror
    · exact .inr hout
    · exact absurd hsplit (hnone before high)
  · intro before high
    exact Program.expand_of_splitsLength hcommands config.swap hfits

/-- A chunk of 260 bytes, cut inside its length, passes for a zero. -/
theorem cut_length_passes_for_zero :
    let xsvf := [0x08, 0x00, 0x00, 0x08, 0x00, 0x0C] ++ List.replicate 256 0xFF ++ [0x00]
    let chunk := [0x08, 0x08, 0x00, 0x0C] ++ List.replicate 256 0xFF
    let body := [0x00, 0x00, 0x01, 0x04] ++ chunk ++ [0x01]
    let cut := [0x00, 0x00, 0x01]
    (convert .standard xsvf).result = .ok ⟨body, 0⟩ ∧ cut <+: body ∧ cut ≠ body ∧
      Body.SplitsLength (reorder true xsvf .unbounded).sink.toList cut [] 1 ∧
      Body.expand cut = .ok [0x00] := by
  intro xsvf chunk body cut
  have h : (convert .standard xsvf).result = .ok ⟨body, 0⟩ := by decide +kernel
  have hcut : cut <+: body := by decide +kernel
  have hstrict : cut ≠ body := by decide +kernel
  have hsplit : Body.SplitsLength (reorder true xsvf .unbounded).sink.toList cut [] 1 :=
    ⟨[], ⟨chunk, 1⟩, [], 4, by decide +kernel, rfl, by decide +kernel, rfl⟩
  exact ⟨h, hcut, hstrict, hsplit, ((cut_body_reads h hcut hstrict).2.2.2 [] 1 hsplit).2⟩

end SerialVector
