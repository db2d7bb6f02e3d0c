/-
Lengths that no field holds.

Packing goes through the segments in order and stops at the first length that is too
great, be it of a chunk or of a run.  `exists_overflow` finds that segment, and the
transcript of the packing follows from it: everything before that length is written, and
no length is written in part or as another.
-/
import SerialVector.Proofs.Body.Encoding

namespace SerialVector.Body

/-- The first segment that has a length too great. -/
theorem exists_overflow (segments : List Segment) :
    (∀ s ∈ segments, fits s = true) ∨
      ∃ front s back, segments = front ++ s :: back ∧ (∀ t ∈ front, fits t = true) ∧
        fits s = false := by
  induction segments with
  | nil => exact .inl fun s hs => absurd hs List.not_mem_nil
  | cons s segments ih =>
    by_cases hs : fits s = true
    · rcases ih with hall | ⟨front, t, back, rfl, hfront, ht⟩
      · exact .inl (List.forall_mem_cons.mpr ⟨hs, hall⟩)
      · exact .inr ⟨s :: front, t, back, rfl, List.forall_mem_cons.mpr ⟨hs, hfront⟩, ht⟩
    · have hnone : ∀ t ∈ ([] : List Segment), fits t = true :=
        fun t ht => absurd ht List.not_mem_nil
      exact .inr ⟨[], s, segments, rfl, hnone, eq_false_of_ne_true hs⟩

theorem transcript_of_fits {segments : List Segment} (h : ∀ s ∈ segments, fits s = true) :
    transcript segments = ⟨.write [header] :: segments.flatMap segmentEvents, .ok ()⟩ := by
  have htake := List.takeWhile_eq_self_iff.mpr h
  have hdrop := List.dropWhile_eq_nil_iff.mpr h
  simp only [transcript_eq, htake, hdrop]

theorem transcript_of_overflow {front back : List Segment} {s : Segment}
    (hfront : ∀ t ∈ front, fits t = true) (hs : fits s = false) :
    transcript (front ++ s :: back) =
      ⟨.write [header] :: front.flatMap segmentEvents ++ (overflow s).events,
        (overflow s).result⟩ := by
  have htake : (front ++ s :: back).takeWhile fits = front := by
    rw [List.takeWhile_append_of_pos hfront, List.takeWhile_cons_of_neg (by simp [hs]),
      List.append_nil]
  have hdrop : (front ++ s :: back).dropWhile fits = s :: back := by
    rw [List.dropWhile_append_of_pos hfront, List.dropWhile_cons_of_neg (by simp [hs])]
  simp only [transcript_eq, htake, hdrop]

/-! ## Packing -/

section Pack

variable {data : List UInt8}

theorem result_pack_of_fits (h : ∀ s ∈ segments data, fits s = true) :
    (pack data .unbounded).result = .ok () := by
  rw [result_pack, transcript_of_fits h]

/-- A packing that fails reports the first length that is too great. -/
theorem exists_of_pack_error {error : ConversionError}
    (h : (pack data .unbounded).result = .error error) :
    ∃ front s back, segments data = front ++ s :: back ∧ (∀ t ∈ front, fits t = true) ∧
      (maxLength < s.chunk.length ∧
          error = .unsupportedSize (.lengthOverflow s.chunk.length) ∨
        s.chunk.length ≤ maxLength ∧ maxLength < s.run ∧
          error = .unsupportedSize (.lengthOverflow s.run)) := by
  rcases exists_overflow (segments data) with hall | ⟨front, s, back, hsegments, hfront, hs⟩
  · rw [result_pack_of_fits hall] at h
    cases h
  · rw [result_pack, hsegments, transcript_of_overflow hfront hs] at h
    refine ⟨front, s, back, hsegments, hfront, ?_⟩
    rcases fits_eq_false_iff.mp hs with hchunk | ⟨hchunk, hrun⟩
    · rw [overflow_of_chunk hchunk] at h
      cases h
      exact .inl ⟨hchunk, rfl⟩
    · rw [overflow_of_run hchunk] at h
      cases h
      exact .inr ⟨hchunk, hrun, rfl⟩

end Pack

/-! ## What is written before a length that no field holds -/

/-- The lengths of segments in the order in which they are written. -/
def lengths (segments : List Segment) : List Nat :=
  segments.flatMap fun s => [s.chunk.length, s.run]

theorem lengths_cons (s : Segment) (segments : List Segment) :
    lengths (s :: segments) = s.chunk.length :: s.run :: lengths segments := rfl

/-- Segments that fit are passed over. -/
theorem find?_lengths_append {front : List Segment} (hfront : ∀ t ∈ front, fits t = true)
    (behind : List Segment) :
    (lengths (front ++ behind)).find? (maxLength < ·) =
      (lengths behind).find? (maxLength < ·) := by
  induction front with
  | nil => rfl
  | cons t front ih =>
    obtain ⟨ht, hfront⟩ := List.forall_mem_cons.mp hfront
    obtain ⟨hchunk, hrun⟩ := fits_iff.mp ht
    rw [List.cons_append, lengths_cons, List.find?_cons_of_neg (by simpa using hchunk),
      List.find?_cons_of_neg (by simpa using hrun)]
    exact ih hfront

/-- A length that fits is written as it is: in one byte if that is enough, or else behind a
zero in two. -/
theorem encodeLength_holds {n : Nat} (h : n ≤ maxLength) :
    (n < 256 ∧ ∃ b : UInt8, encodeLength n = [b] ∧ b.toNat = n) ∨
      256 ≤ n ∧ ∃ hi lo : UInt8, encodeLength n = [0, hi, lo] ∧ hi.toNat * 256 + lo.toNat = n := by
  unfold maxLength at h
  by_cases hshort : n < 256
  · refine .inl ⟨hshort, _, encodeLength_short hshort, ?_⟩
    rw [UInt8.toNat_ofNat']
    omega
  · have hlong : 256 ≤ n := Nat.le_of_not_lt hshort
    refine .inr ⟨hlong, _, _, encodeLength_long hlong, ?_⟩
    rw [UInt8.toNat_ofNat', UInt8.toNat_ofNat']
    omega

section Stopped

variable {data : List UInt8} {front back : List Segment} {s : Segment}
  (hsegments : segments data = front ++ s :: back) (hfront : ∀ t ∈ front, fits t = true)
include hsegments hfront

theorem toList_pack_of_overflow (hs : fits s = false) :
    (pack data .unbounded).sink.toList =
      header :: (encodeRow front ++ Event.written (overflow s).events) := by
  rw [toList_pack, hsegments, transcript_of_overflow hfront hs, Event.written_append,
    Event.written_write, written_flatMap_segmentEvents]
  rfl

theorem pack_of_long_chunk (hchunk : maxLength < s.chunk.length) :
    (lengths (segments data)).find? (maxLength < ·) = some s.chunk.length ∧
      (pack data .unbounded).sink.toList = header :: encodeRow front := by
  have hs : fits s = false := fits_eq_false_iff.mpr (.inl hchunk)
  constructor
  · rw [hsegments, find?_lengths_append hfront, lengths_cons,
      List.find?_cons_of_pos (by simpa using hchunk)]
  · rw [toList_pack_of_overflow hsegments hfront hs, overflow_of_chunk hchunk, Event.written_nil,
      List.append_nil]

theorem pack_of_long_run (hchunk : s.chunk.length ≤ maxLength) (hrun : maxLength < s.run) :
    (lengths (segments data)).find? (maxLength < ·) = some s.run ∧
      (pack data .unbounded).sink.toList =
        header :: (encodeRow front ++ (encodeLength s.chunk.length ++ s.chunk)) := by
  have hs : fits s = false := fits_eq_false_iff.mpr (.inr ⟨hchunk, hrun⟩)
  constructor
  · rw [hsegments, find?_lengths_append hfront, lengths_cons,
      List.find?_cons_of_neg (by simpa using hchunk),
      List.find?_cons_of_pos (by simpa using hrun)]
  · rw [toList_pack_of_overflow hsegments hfront hs, overflow_of_run hchunk, chunkEvents,
      Event.written_write, Event.written_write, Event.written_nil, List.append_nil]

end Stopped

/-- Packing fails exactly if a length is too great for its field, and reports the first such
length.  The header, the segments before it and, for a run, the chunk it follows are then
written, and nothing of the length itself.  Without a failure all segments are written.  No
length is cut short to fit its field. -/
theorem packing_stops_at_first_overflow (data : List UInt8) :
    ((∃ error, (pack data .unbounded).result = .error error) ↔
      ∃ s ∈ segments data, 65535 < s.chunk.length ∨ 65535 < s.run) ∧
    (∀ error, (pack data .unbounded).result = .error error → ∃ got front s back,
      error = .unsupportedSize (.lengthOverflow got) ∧
      (lengths (segments data)).find? (65535 < ·) = some got ∧
      segments data = front ++ s :: back ∧
      (∀ t ∈ front, t.chunk.length ≤ 65535 ∧ t.run ≤ 65535) ∧
      (65535 < s.chunk.length ∧ got = s.chunk.length ∧
          (pack data .unbounded).sink.toList = header :: front.flatMap encodeSegment ∨
        s.chunk.length ≤ 65535 ∧ 65535 < s.run ∧ got = s.run ∧
          (pack data .unbounded).sink.toList = header :: (front.flatMap encodeSegment ++
            (encodeLength s.chunk.length ++ s.chunk)))) ∧
    ((pack data .unbounded).result = .ok () →
      (pack data .unbounded).sink.toList = header :: (segments data).flatMap encodeSegment) ∧
    ∀ n ≤ 65535, (n < 256 ∧ ∃ b : UInt8, encodeLength n = [b] ∧ b.toNat = n) ∨
      256 ≤ n ∧ ∃ hi lo : UInt8, encodeLength n = [0, hi, lo] ∧
        hi.toNat * 256 + lo.toNat = n := by
  refine ⟨⟨?_, ?_⟩, ?_, toList_pack_of_ok, fun n hn => encodeLength_holds hn⟩
  · rintro ⟨error, herror⟩
    obtain ⟨front, s, back, hsegments, -, hlong⟩ := exists_of_pack_error herror
    refine ⟨s, ?_, hlong.imp And.left fun hrun => hrun.2.1⟩
    rw [hsegments]
    exact List.mem_append_right front List.mem_cons_self
  · rintro ⟨s, hs, hlong⟩
    cases hresult : (pack data .unbounded).result with
    | error error => exact ⟨error, rfl⟩
    | ok done =>
      have hfits := fits_iff.mp (fits_of_pack_ok hresult s hs)
      unfold maxLength at hfits
      omega
  · intro error herror
    obtain ⟨front, s, back, hsegments, hfront, hlong⟩ := exists_of_pack_error herror
    have hshort : ∀ t ∈ front, t.chunk.length ≤ 65535 ∧ t.run ≤ 65535 :=
      fun t ht => fits_iff.mp (hfront t ht)
    rcases hlong with ⟨hchunk, rfl⟩ | ⟨hchunk, hrun, rfl⟩
    · obtain ⟨hfirst, hwritten⟩ := pack_of_long_chunk hsegments hfront hchunk
      exact ⟨_, front, s, back, rfl, hfirst, hsegments, hshort, .inl ⟨hchunk, rfl, hwritten⟩⟩
    · obtain ⟨hfirst, hwritten⟩ := pack_of_long_run hsegments hfront hchunk hrun
      exact ⟨_, front, s, back, rfl, hfirst, hsegments, hshort,
        .inr ⟨hchunk, hrun, rfl, hwritten⟩⟩

end SerialVector.Body
