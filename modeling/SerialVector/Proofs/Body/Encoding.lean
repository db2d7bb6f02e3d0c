/-
Bodies as packing writes them.

A body that was packed without a failure is `encode` of the segments.  The writer of lengths
fails on one that no field holds, so the failures of packing are in `Body.transcript` alone, and
nothing here looks at a sink.
-/
import Mathlib.Data.List.TakeWhile
import SerialVector.Proofs.BigEndian
import SerialVector.Proofs.Unbounded

namespace SerialVector.Body

/-- The field of a length up to `maxLength`. -/
def encodeLength (n : Nat) : List UInt8 :=
  if n < 256 then [UInt8.ofNat n] else 0 :: BigEndian.encode 2 n

def encodeSegment (s : Segment) : List UInt8 :=
  encodeLength s.chunk.length ++ s.chunk ++ encodeLength s.run

def encodeRow (segments : List Segment) : List UInt8 := segments.flatMap encodeSegment

def encode (segments : List Segment) : List UInt8 := header :: encodeRow segments

@[simp] theorem encodeRow_nil : encodeRow [] = [] := rfl

theorem encodeRow_cons (s : Segment) (segments : List Segment) :
    encodeRow (s :: segments) =
      encodeLength s.chunk.length ++ (s.chunk ++ (encodeLength s.run ++ encodeRow segments)) := by
  rw [encodeRow, List.flatMap_cons, encodeSegment, List.append_assoc, List.append_assoc,
    ← encodeRow]

/-! ## Lengths that fit and lengths that do not -/

def fits (s : Segment) : Bool := s.chunk.length ≤ maxLength && s.run ≤ maxLength

theorem fits_iff {s : Segment} :
    fits s = true ↔ s.chunk.length ≤ maxLength ∧ s.run ≤ maxLength := by
  rw [fits, Bool.and_eq_true, decide_eq_true_iff, decide_eq_true_iff]

theorem fits_eq_false_iff {s : Segment} :
    fits s = false ↔ maxLength < s.chunk.length ∨
      s.chunk.length ≤ maxLength ∧ maxLength < s.run := by
  rw [← Bool.not_eq_true, fits_iff]
  omega

def chunkEvents (s : Segment) : List Event :=
  [.write (encodeLength s.chunk.length), .write s.chunk]

def segmentEvents (s : Segment) : List Event :=
  chunkEvents s ++ [.write (encodeLength s.run)]

/-- What is written of a segment with a length too great. -/
def overflow (s : Segment) : Transcript Unit :=
  if maxLength < s.chunk.length then
    ⟨[], .error (.unsupportedSize (.lengthOverflow s.chunk.length))⟩
  else
    ⟨chunkEvents s, .error (.unsupportedSize (.lengthOverflow s.run))⟩

theorem overflow_of_chunk {s : Segment} (h : maxLength < s.chunk.length) :
    overflow s = ⟨[], .error (.unsupportedSize (.lengthOverflow s.chunk.length))⟩ :=
  if_pos h

theorem overflow_of_run {s : Segment} (h : s.chunk.length ≤ maxLength) :
    overflow s = ⟨chunkEvents s, .error (.unsupportedSize (.lengthOverflow s.run))⟩ :=
  if_neg (Nat.not_lt.mpr h)

theorem result_overflow_ne_ok (s : Segment) : (overflow s).result ≠ .ok () := by
  unfold overflow
  split <;> exact fun h => by cases h

theorem lengthTranscript_of_le {n : Nat} (h : n ≤ maxLength) :
    lengthTranscript n = ⟨[.write (encodeLength n)], .ok ()⟩ := by
  rw [lengthTranscript, lengthField?, encodeLength]
  by_cases hshort : n < 256
  · rw [if_pos hshort, if_pos hshort]
  · rw [if_neg hshort, if_neg hshort, if_pos h]

theorem lengthTranscript_of_lt {n : Nat} (h : maxLength < n) :
    lengthTranscript n = ⟨[], .error (.unsupportedSize (.lengthOverflow n))⟩ := by
  have hlong : ¬ n < 256 := by
    unfold maxLength at h
    omega
  rw [lengthTranscript, lengthField?, if_neg hlong, if_neg (Nat.not_le.mpr h)]

/-! ## Segment by segment -/

theorem sequence_segment_of_fits {s : Segment} (h : fits s = true) (ts : List (Transcript Unit)) :
    Transcript.sequence (segmentTranscripts s ++ ts) =
      ⟨segmentEvents s ++ (Transcript.sequence ts).events, (Transcript.sequence ts).result⟩ := by
  obtain ⟨hchunk, hrun⟩ := fits_iff.mp h
  rw [segmentTranscripts, lengthTranscript_of_le hchunk, lengthTranscript_of_le hrun]
  simp only [List.cons_append, List.nil_append, Transcript.sequence_cons_of_ok]
  rfl

theorem sequence_segment_of_overflow {s : Segment} (h : fits s = false)
    (ts : List (Transcript Unit)) :
    Transcript.sequence (segmentTranscripts s ++ ts) = overflow s := by
  rcases fits_eq_false_iff.mp h with hchunk | ⟨hchunk, hrun⟩
  · rw [segmentTranscripts, lengthTranscript_of_lt hchunk, overflow_of_chunk hchunk]
    exact Transcript.sequence_cons_of_error rfl _
  · rw [segmentTranscripts, lengthTranscript_of_le hchunk, lengthTranscript_of_lt hrun,
      overflow_of_run hchunk]
    simp only [List.cons_append, List.nil_append, Transcript.sequence_cons_of_ok]
    rfl

/-- The segments in front that fit are written whole, and the first that does not ends the
packing. -/
theorem sequence_segments (segments : List Segment) :
    Transcript.sequence (segments.flatMap segmentTranscripts) =
      match segments.dropWhile fits with
      | [] => ⟨(segments.takeWhile fits).flatMap segmentEvents, .ok ()⟩
      | s :: _ => ⟨(segments.takeWhile fits).flatMap segmentEvents ++ (overflow s).events,
          (overflow s).result⟩ := by
  induction segments with
  | nil => rfl
  | cons s segments ih =>
    rw [List.flatMap_cons]
    cases hs : fits s with
    | true =>
      rw [sequence_segment_of_fits hs, ih, List.takeWhile_cons_of_pos hs,
        List.dropWhile_cons_of_pos hs, List.flatMap_cons]
      cases segments.dropWhile fits with
      | nil => rfl
      | cons t behind => simp only [List.append_assoc]
    | false =>
      rw [sequence_segment_of_overflow hs, List.takeWhile_cons_of_neg (by simp [hs]),
        List.dropWhile_cons_of_neg (by simp [hs])]
      rfl

/-- A packing as a whole: what is written before the first length that is too great, and how
that length ends it. -/
theorem transcript_eq (segments : List Segment) :
    transcript segments =
      let whole := .write [header] :: (segments.takeWhile fits).flatMap segmentEvents
      match segments.dropWhile fits with
      | [] => ⟨whole, .ok ()⟩
      | s :: _ => ⟨whole ++ (overflow s).events, (overflow s).result⟩ := by
  rw [transcript, Transcript.sequence_cons_of_ok rfl, sequence_segments]
  cases segments.dropWhile fits with
  | nil => rfl
  | cons s behind => rfl

/-! ## What is written of a packing -/

theorem written_segmentEvents (s : Segment) :
    Event.written (segmentEvents s) = encodeSegment s := by
  simp [segmentEvents, chunkEvents, encodeSegment]

theorem written_flatMap_segmentEvents (segments : List Segment) :
    Event.written (segments.flatMap segmentEvents) = encodeRow segments := by
  induction segments with
  | nil => rfl
  | cons s segments ih =>
    rw [List.flatMap_cons, Event.written_append, written_segmentEvents, ih]
    rfl

theorem fits_of_transcript_ok {segments : List Segment}
    (h : (transcript segments).result = .ok ()) : ∀ s ∈ segments, fits s = true := by
  cases hdrop : segments.dropWhile fits with
  | nil => exact List.dropWhile_eq_nil_iff.mp hdrop
  | cons s behind =>
    simp only [transcript_eq, hdrop] at h
    exact absurd h (result_overflow_ne_ok s)

theorem fits_of_pack_ok {data : List UInt8} (h : (pack data .unbounded).result = .ok ()) :
    ∀ s ∈ segments data, fits s = true :=
  fits_of_transcript_ok ((result_pack data).symm.trans h)

theorem toList_pack_of_ok {data : List UInt8} (h : (pack data .unbounded).result = .ok ()) :
    (pack data .unbounded).sink.toList = encode (segments data) := by
  have hfits := fits_of_pack_ok h
  have htake := List.takeWhile_eq_self_iff.mpr hfits
  have hdrop := List.dropWhile_eq_nil_iff.mpr hfits
  rw [toList_pack]
  simp only [transcript_eq, hdrop, htake, Event.written_write, written_flatMap_segmentEvents]
  rfl

/-! ## Length fields -/

theorem encodeLength_short {n : Nat} (h : n < 256) : encodeLength n = [UInt8.ofNat n] :=
  if_pos h

theorem encodeLength_long {n : Nat} (h : 256 ≤ n) :
    encodeLength n = [0, UInt8.ofNat (n / 256), UInt8.ofNat n] :=
  if_neg (Nat.not_lt.mpr h)

theorem ofNat_ne_zero {n : Nat} (h : n % 256 ≠ 0) : UInt8.ofNat n ≠ 0 := by
  intro heq
  have hnat := congrArg UInt8.toNat heq
  rw [UInt8.toNat_ofNat'] at hnat
  exact h hnat

theorem decode_pair (hi lo : UInt8) : BigEndian.decode [hi, lo] = hi.toNat * 256 + lo.toNat := by
  simp [BigEndian.decode]

theorem readLength?_of_ne_zero {b : UInt8} (hb : b ≠ 0) (position : Nat) (rest : List UInt8) :
    readLength? ⟨position, b :: rest⟩ = some (b.toNat, ⟨position + 1, rest⟩) := by
  unfold readLength?
  split
  · contradiction
  · rename_i heq
    exact absurd (List.cons.inj heq).1 hb
  · rename_i heq
    obtain ⟨rfl, rfl⟩ := List.cons.inj heq
    rfl

theorem readLength?_zero_of_short {rest : List UInt8} (h : rest.length < 2) (position : Nat) :
    readLength? ⟨position, 0 :: rest⟩ = some (0, ⟨position + 1, rest⟩) := by
  match rest, h with
  | [], _ => rfl
  | [_], _ => rfl
  | _ :: _ :: _, h => exact absurd h (by simp)

/-- A length reads back, if a zero is not taken for the beginning of a longer
field. -/
theorem readLength?_encodeLength {n : Nat} (hn : n ≤ maxLength) {rest : List UInt8}
    (hzero : n = 0 → rest.length < 2) (position : Nat) :
    readLength? ⟨position, encodeLength n ++ rest⟩ =
      some (n, ⟨position + (encodeLength n).length, rest⟩) := by
  by_cases hlong : 256 ≤ n
  · have hn' : n < 256 ^ 2 := Nat.lt_succ_of_le hn
    have hdecode := BigEndian.decode_encode_of_lt hn'
    rw [encodeLength_long hlong]
    show some (BigEndian.decode (BigEndian.encode 2 n), _) = _
    rw [hdecode]
    rfl
  · rw [encodeLength_short (Nat.lt_of_not_le hlong)]
    by_cases h : n = 0
    · subst h
      exact readLength?_zero_of_short (hzero rfl) position
    · have hb : UInt8.ofNat n ≠ 0 := ofNat_ne_zero (by omega)
      rw [List.singleton_append, readLength?_of_ne_zero hb, UInt8.toNat_ofNat',
        Nat.mod_eq_of_lt (by omega)]
      rfl

end SerialVector.Body
