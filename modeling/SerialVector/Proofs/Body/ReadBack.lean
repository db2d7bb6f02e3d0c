/-
Which bytes read back from the body they were packed into.

A length of zero is written as the byte that opens a long length field.  It is read
as a zero only where fewer than two bytes follow it, which is at the end of a body.
A segment without literal bytes can therefore stand at the end only.  Literal bytes
are missing only from a first segment, when the bytes begin with more zeros than
stay in a chunk, so that the zeros in front decide what reads back.
-/
import SerialVector.Proofs.Body.Contents
import SerialVector.Proofs.Body.Encoding
import SerialVector.Proofs.Cursor
import SerialVector.Proofs.Segment.Shape

namespace SerialVector

namespace Segment

/-- How many zeros stand in front. -/
def leadingZeros (data : List UInt8) : Nat := (data.takeWhile (· == 0)).length

theorem exists_leadingZeros (data : List UInt8) :
    ∃ rest, data = List.replicate (leadingZeros data) 0 ++ rest ∧
      (rest = [] ∨ ∃ b tail, rest = b :: tail ∧ b ≠ 0) := by
  induction data with
  | nil => exact ⟨[], rfl, .inl rfl⟩
  | cons a data ih =>
    by_cases ha : a = 0
    · obtain ⟨rest, hdata, hrest⟩ := ih
      have hcount : leadingZeros (a :: data) = leadingZeros data + 1 := by
        simp [leadingZeros, ha]
      refine ⟨rest, ?_, hrest⟩
      rw [hcount, List.replicate_succ, List.cons_append, ← hdata, ha]
    · have hcount : leadingZeros (a :: data) = 0 := by
        simp [leadingZeros, ha]
      exact ⟨a :: data, by rw [hcount]; rfl, .inr ⟨a, data, rfl, ha⟩⟩

end Segment

namespace Body

/-! ## Bodies that read back -/

/-- Segments none of whose lengths is taken for the beginning of a longer field. -/
def Clear : List Segment → Prop
  | [] => True
  | s :: rest => (s.chunk = [] → s.run < 256 ∧ rest = []) ∧ (s.run = 0 → rest = []) ∧ Clear rest

theorem readFrom_encodeRow {segments : List Segment} (hclear : Clear segments)
    (hfits : ∀ s ∈ segments, fits s = true) (position : Nat) :
    Contents.readFrom [] ⟨position, encodeRow segments⟩ = ⟨segments, [], none⟩ := by
  induction segments generalizing position with
  | nil => exact Contents.readFrom_of_end rfl
  | cons s segments ih =>
    obtain ⟨hchunk, hrun, hrest⟩ := hclear
    have hs := fits_iff.mp (hfits s List.mem_cons_self)
    have hrunRest : s.run = 0 → (encodeRow segments).length < 2 := by
      intro hzero
      rw [hrun hzero]
      decide
    have hchunkRest : s.chunk.length = 0 →
        (s.chunk ++ (encodeLength s.run ++ encodeRow segments)).length < 2 := by
      intro hzero
      have hnil := List.eq_nil_of_length_eq_zero hzero
      obtain ⟨hshort, hlast⟩ := hchunk hnil
      rw [hnil, hlast, encodeLength_short hshort]
      exact Nat.lt_succ_self 1
    have hc := readLength?_encodeLength hs.1 hchunkRest position
    have hd := Cursor.take?_append (position + (encodeLength s.chunk.length).length) s.chunk
      (encodeLength s.run ++ encodeRow segments)
    have he := readLength?_encodeLength hs.2 hrunRest
      (position + (encodeLength s.chunk.length).length + s.chunk.length)
    rw [encodeRow_cons, Contents.readFrom_of_segment hc hd he,
      ih hrest fun t ht => hfits t (List.mem_cons_of_mem s ht)]

theorem expand_encode_of_clear {data : List UInt8} (hclear : Clear (segments data))
    (hfits : ∀ s ∈ segments data, fits s = true) : expand (encode (segments data)) = .ok data := by
  have hread : Contents.read (encode (segments data)) = ⟨segments data, [], none⟩ := by
    rw [encode, Contents.read_header]
    exact readFrom_encodeRow hclear hfits 1
  rw [expand_eq_ok_iff, hread]
  refine ⟨rfl, ?_⟩
  rw [Contents.bytes, List.append_nil, Segment.join_segments]

theorem clear_segments {data : List UInt8} (h : ∀ s ∈ segments data, s.chunk ≠ []) :
    Clear (segments data) := by
  refine Segment.segments_induction
    (motive := fun _ segments => (∀ s ∈ segments, s.chunk ≠ []) → Clear segments)
    (fun _ => trivial) ?_ data h
  intro data _ ih hchunks
  refine ⟨fun hnil => absurd hnil (hchunks _ List.mem_cons_self), ?_,
    ih fun s hs => hchunks s (List.mem_cons_of_mem _ hs)⟩
  intro hrun
  rcases Segment.rest_scan [] 0 data with hnil | ⟨_, _, _, _, hlong⟩
  · rw [hnil, Segment.segments_nil]
  · omega

/-- Bytes that read back: few zeros in front of others, or few zeros only. -/
theorem clear_of_leadingZeros {data : List UInt8}
    (h : Segment.leadingZeros data ≤ 8 ∨ (∀ b ∈ data, b = 0) ∧ data.length ≤ 255) :
    Clear (segments data) := by
  obtain ⟨rest, hdata, hrest⟩ := Segment.exists_leadingZeros data
  rcases hrest with rfl | ⟨b, tail, rfl, hb⟩
  · rw [List.append_nil] at hdata
    by_cases hzero : Segment.leadingZeros data = 0
    · rw [hdata, hzero, List.replicate_zero, Segment.segments_nil]
      trivial
    · have hlength : data.length = Segment.leadingZeros data := by
        rw [hdata, List.length_replicate, ← hdata]
      rw [hdata, Segment.segments_replicate hzero]
      refine ⟨fun _ => ⟨?_, rfl⟩, fun _ => rfl, trivial⟩
      show Segment.leadingZeros data < 256
      omega
  · have hshort : Segment.leadingZeros data ≤ Segment.longestInner := by
      rcases h with h | ⟨hall, _⟩
      · exact h
      · exact absurd (hall b (by rw [hdata]; simp)) hb
    apply clear_segments
    rw [hdata]
    exact Segment.chunk_ne_nil_of_short_front hshort hb tail

/-! ## Bodies that do not -/

/-- The body of bytes that begin with a long row of zeros, behind its header: the zero
that means an empty chunk is read as the first byte of a long length. -/
theorem encodeRow_zeros (count : Nat) (segments : List Segment) :
    encodeRow (⟨[], count⟩ :: segments) = 0 :: (encodeLength count ++ encodeRow segments) :=
  encodeRow_cons _ _

/-- Zeros that a body gives back in its first chunk stand in the body. -/
theorem getElem?_of_zeros {c d : Cursor} {count zeros : Nat} {behind : List UInt8}
    (hc : readLength? c = some (count, d)) (h : (Contents.readFrom [] c).error = none)
    (hbytes : (Contents.readFrom [] c).bytes = List.replicate zeros 0 ++ behind) {i : Nat}
    (hcount : i < count) (hzeros : i < zeros) : d.rest[i]? = some 0 := by
  obtain ⟨chunk, rest, more, hlength, hrest, _, hmore⟩ :=
    Contents.exists_chunk_of_error_eq_none hc h
  have hi : i < chunk.length := by omega
  calc d.rest[i]? = chunk[i]? := by rw [hrest, List.getElem?_append_left hi]
    _ = (Contents.readFrom [] c).bytes[i]? := by rw [hmore, List.getElem?_append_left hi]
    _ = some 0 := by
      rw [hbytes, List.getElem?_append_left (by rw [List.length_replicate]; exact hzeros),
        List.getElem?_replicate, if_pos hzeros]

/-- A body of zeros only ends inside what is taken for its first chunk. -/
theorem error_of_long_zeros {count : Nat} (hcount : 256 ≤ count) (hmax : count ≤ maxLength)
    (position : Nat) :
    (Contents.readFrom [] ⟨position, encodeRow [⟨[], count⟩]⟩).error ≠ none := by
  intro h
  have hrow : encodeRow [⟨[], count⟩] =
      [0, 0, UInt8.ofNat (count / 256), UInt8.ofNat count] := by
    rw [encodeRow_zeros, encodeLength_long hcount]
    rfl
  rw [hrow] at h
  obtain ⟨chunk, rest, _, hlength, hrest, hne, _⟩ := Contents.exists_chunk_of_error_eq_none rfl h
  have hpos := List.length_pos_iff.mpr hne
  have hone := congrArg List.length hrest
  unfold maxLength at hmax
  rw [decode_pair, UInt8.toNat_ofNat'] at hlength
  simp only [List.length_singleton, List.length_append, UInt8.toNat_zero] at hone hlength
  omega

/-- The length of a chunk that is not empty has a byte that is not zero, and at most
one byte in front of it. -/
theorem encodeLength_cases {n : Nat} (hpos : 0 < n) (hmax : n ≤ maxLength) :
    (∃ x, encodeLength n = [x] ∧ x ≠ 0) ∨ ∃ x y, encodeLength n = [0, x, y] ∧ x ≠ 0 := by
  unfold maxLength at hmax
  by_cases hshort : n < 256
  · exact .inl ⟨_, encodeLength_short hshort, ofNat_ne_zero (by omega)⟩
  · exact .inr ⟨_, _, encodeLength_long (Nat.le_of_not_lt hshort), ofNat_ne_zero (by omega)⟩

/-- What is taken for the first chunk of a body that begins with a long row of zeros
has a byte that is not zero, near enough to the front to stand in for one of the
zeros. -/
theorem exists_literal_of_long_front {count : Nat} (hlong : 9 ≤ count) (hmax : count ≤ maxLength)
    (hone : count ≠ 256) (htwo : count ≠ 512) {s : Segment} {b : UInt8} (hb : b ≠ 0)
    {literal : List UInt8} (hs : s.chunk = b :: literal) (hfits : s.chunk.length ≤ maxLength)
    (segments : List Segment) (position : Nat) :
    ∃ length d i x, readLength? ⟨position, encodeRow (⟨[], count⟩ :: s :: segments)⟩ =
        some (length, d) ∧ i < length ∧ i < count ∧ d.rest[i]? = some x ∧ x ≠ 0 := by
  have hpos : 0 < s.chunk.length := by
    rw [hs]
    exact Nat.succ_pos _
  unfold maxLength at hmax
  rw [encodeRow_zeros, encodeRow_cons]
  by_cases hshort : count < 256
  · have hlow : (UInt8.ofNat count).toNat = count := by
      rw [UInt8.toNat_ofNat', Nat.mod_eq_of_lt hshort]
    rw [encodeLength_short hshort]
    rcases encodeLength_cases hpos hfits with ⟨x, hx, hne⟩ | ⟨x, y, hx, hne⟩
    · -- The chunk itself comes first.
      rw [hx, hs]
      refine ⟨_, _, 0, b, rfl, ?_, by omega, rfl, hb⟩
      rw [decode_pair]
      omega
    · -- The rest of the length of the chunk comes first.
      rw [hx]
      refine ⟨_, _, 0, x, rfl, ?_, by omega, rfl, hne⟩
      rw [decode_pair]
      omega
  · have hhigh : (UInt8.ofNat (count / 256)).toNat = count / 256 := by
      rw [UInt8.toNat_ofNat', Nat.mod_eq_of_lt (by omega)]
    rw [encodeLength_long (Nat.le_of_not_lt hshort)]
    by_cases hlow : count % 256 = 0
    · rcases encodeLength_cases hpos hfits with ⟨x, hx, hne⟩ | ⟨x, y, hx, hne⟩
      · rw [hx]
        refine ⟨_, _, 1, x, rfl, ?_, by omega, rfl, hne⟩
        rw [decode_pair]
        omega
      · rw [hx]
        refine ⟨_, _, 2, x, rfl, ?_, by omega, rfl, hne⟩
        rw [decode_pair]
        omega
    · -- The low byte of the run comes first.
      refine ⟨_, _, 0, _, rfl, ?_, by omega, rfl, ofNat_ne_zero hlow⟩
      rw [decode_pair]
      omega

theorem expand_ne_of_long_front {count : Nat} (hlong : 9 ≤ count) (hone : count ≠ 256)
    (htwo : count ≠ 512) {b : UInt8} (hb : b ≠ 0) (tail : List UInt8)
    (hfits : ∀ s ∈ segments (List.replicate count 0 ++ b :: tail), fits s = true) :
    expand (encode (segments (List.replicate count 0 ++ b :: tail))) ≠
      .ok (List.replicate count 0 ++ b :: tail) := by
  rw [Segment.segments_long_front hlong hb, Segment.segments_of_ne_nil (List.cons_ne_nil b tail)]
    at hfits ⊢
  generalize hs : (Segment.scan [] 0 (b :: tail)).1 = s at hfits ⊢
  generalize segments (Segment.scan [] 0 (b :: tail)).2 = more at hfits ⊢
  have hzeros := (fits_iff.mp (hfits ⟨[], count⟩ List.mem_cons_self)).2
  have hchunk := (fits_iff.mp (hfits s (List.mem_cons_of_mem _ List.mem_cons_self))).1
  obtain ⟨literal, hliteral⟩ : ∃ literal, s.chunk = b :: literal := by
    have hprefix := Segment.prefix_chunk_scan [b] 0 tail
    rw [← hs, Segment.scan_cons_of_le hb (Nat.zero_le _)]
    obtain ⟨literal, hliteral⟩ := hprefix
    exact ⟨literal, hliteral.symm⟩
  obtain ⟨length, d, i, x, hc, hlength, hcount, hx, hne⟩ :=
    exists_literal_of_long_front hlong hzeros hone htwo hb hliteral hchunk more 1
  intro hok
  rw [expand_eq_ok_iff, encode, Contents.read_header] at hok
  rw [getElem?_of_zeros hc hok.1 hok.2 hlength hcount] at hx
  exact hne (Option.some.inj hx).symm

end Body

/-- Which bytes read back from their body.  Rows of 256 and 512 zeros in front of
other bytes are left out: what follows them decides. -/
theorem packed_reads_back {data : List UInt8}
    (h : (Body.pack data .unbounded).result = .ok ()) :
    let body := (Body.pack data .unbounded).sink.toList
    let zeros := Segment.leadingZeros data
    (zeros ≤ 8 ∨ ((∀ b ∈ data, b = 0) ∧ data.length ≤ 255) → Body.expand body = .ok data) ∧
      (((∀ b ∈ data, b = 0) ∧ 256 ≤ data.length) ∨
          ((∃ b ∈ data, b ≠ 0) ∧ 9 ≤ zeros ∧ zeros ≠ 256 ∧ zeros ≠ 512) →
        Body.expand body ≠ .ok data) := by
  intro body zeros
  have hfits := Body.fits_of_pack_ok h
  have hbody : body = Body.encode (segments data) := Body.toList_pack_of_ok h
  rw [hbody]
  refine ⟨fun hclear => Body.expand_encode_of_clear (Body.clear_of_leadingZeros hclear) hfits, ?_⟩
  rintro (⟨hzero, hlength⟩ | ⟨⟨a, hmem, ha⟩, hlong, hone, htwo⟩)
  · have hdata : data = List.replicate data.length 0 := List.eq_replicate_iff.mpr ⟨rfl, hzero⟩
    have hsegments : segments data = [⟨[], data.length⟩] := by
      rw [hdata, Segment.segments_replicate (by omega), List.length_replicate]
    have hmem : ⟨[], data.length⟩ ∈ segments data := by
      rw [hsegments]
      exact List.mem_cons_self
    have hmax := (Body.fits_iff.mp (hfits _ hmem)).2
    rw [hsegments, ne_eq, Body.expand_eq_ok_iff, Body.encode, Body.Contents.read_header]
    exact fun hok => Body.error_of_long_zeros hlength hmax 1 hok.1
  · obtain ⟨rest, hdata, hrest⟩ := Segment.exists_leadingZeros data
    rcases hrest with rfl | ⟨b, tail, rfl, hb⟩
    · rw [hdata, List.append_nil, List.mem_replicate] at hmem
      exact absurd hmem.2 ha
    · rw [hdata] at hfits ⊢
      exact Body.expand_ne_of_long_front hlong hone htwo hb tail hfits

/-- Eight zeros in front of a literal byte read back and nine do not. -/
theorem eight_zeros_read_back_nine_do_not :
    let eight := List.replicate 8 0 ++ [7, 0]
    let nine := List.replicate 9 0 ++ [7, 0]
    (Body.pack eight .unbounded).result = .ok () ∧
      Body.expand (Body.pack eight .unbounded).sink.toList = .ok eight ∧
      (Body.pack nine .unbounded).result = .ok () ∧
      Body.expand (Body.pack nine .unbounded).sink.toList ≠ .ok nine := by
  intro eight nine
  have height : (Body.pack eight .unbounded).result = .ok () := by decide +kernel
  have hnine : (Body.pack nine .unbounded).result = .ok () := by decide +kernel
  exact ⟨height, (packed_reads_back height).1 (.inl (by decide)), hnine,
    (packed_reads_back hnine).2 (.inr ⟨⟨7, by decide, by decide⟩, by decide, by decide, by decide⟩)⟩

end SerialVector
