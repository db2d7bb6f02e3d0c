/-
Bodies that are cut off.

A reader of a body that ends too early mostly finds that out.  It does not where the cut
lies between two segments, and where it lies inside a field of three bytes, since a zero
near the end is then a length of its own: behind the zero of a run's field the segment is
given back without its run, and between the two bytes of a chunk's length the first of
them is taken for the length of a run.  `CutIn` lists the places where a segment can be
cut.
-/
import SerialVector.Proofs.Body.ReadBack

namespace SerialVector.Body

/-- A segment with literal bytes and zeros, so that no length of it is a zero. -/
def Solid (s : Segment) : Prop := s.chunk ≠ [] ∧ s.run ≠ 0

/-! ## Whole segments in front -/

section Front

variable {s : Segment} {segments : List Segment} (position : Nat) (rest : List UInt8)

theorem readFrom_chunk_append {run : Nat} {f : Cursor} (hchunk : s.chunk ≠ [])
    (hmax : s.chunk.length ≤ maxLength)
    (he : readLength? ⟨position + (encodeLength s.chunk.length).length + s.chunk.length, rest⟩ =
      some (run, f)) :
    let behind := Contents.readFrom [] f
    Contents.readFrom [] ⟨position, encodeLength s.chunk.length ++ (s.chunk ++ rest)⟩ =
      ⟨⟨s.chunk, run⟩ :: behind.segments, behind.tail, behind.error⟩ := by
  have hzero : s.chunk.length = 0 → (s.chunk ++ rest).length < 2 :=
    fun h => absurd (List.eq_nil_of_length_eq_zero h) hchunk
  have hc := readLength?_encodeLength hmax hzero position
  have hd := Cursor.take?_append (position + (encodeLength s.chunk.length).length) s.chunk rest
  exact Contents.readFrom_of_segment hc hd he

theorem readFrom_encodeSegment_append (hs : Solid s) (hfits : fits s = true) :
    let behind := Contents.readFrom [] ⟨position + (encodeSegment s).length, rest⟩
    Contents.readFrom [] ⟨position, encodeSegment s ++ rest⟩ =
      ⟨s :: behind.segments, behind.tail, behind.error⟩ := by
  obtain ⟨hchunk, hrun⟩ := fits_iff.mp hfits
  have hzero : s.run = 0 → rest.length < 2 := fun h => absurd h hs.2
  have he := readLength?_encodeLength hrun hzero
    (position + (encodeLength s.chunk.length).length + s.chunk.length)
  have hfields : encodeSegment s ++ rest =
      encodeLength s.chunk.length ++ (s.chunk ++ (encodeLength s.run ++ rest)) := by
    simp only [encodeSegment, List.append_assoc]
  have hend : position + (encodeSegment s).length =
      position + (encodeLength s.chunk.length).length + s.chunk.length +
        (encodeLength s.run).length := by
    simp only [encodeSegment, List.length_append]
    omega
  rw [hfields, hend]
  exact readFrom_chunk_append position _ hs.1 hchunk he

/-- What stands behind whole segments is read as if they were not there. -/
theorem readFrom_encodeRow_append (hsolid : ∀ s ∈ segments, Solid s)
    (hfits : ∀ s ∈ segments, fits s = true) :
    let behind := Contents.readFrom [] ⟨position + (encodeRow segments).length, rest⟩
    Contents.readFrom [] ⟨position, encodeRow segments ++ rest⟩ =
      ⟨segments ++ behind.segments, behind.tail, behind.error⟩ := by
  induction segments generalizing position with
  | nil => rfl
  | cons s segments ih =>
    have hrow : encodeRow (s :: segments) = encodeSegment s ++ encodeRow segments := rfl
    have hlength : position + (encodeRow (s :: segments)).length =
        position + (encodeSegment s).length + (encodeRow segments).length := by
      rw [hrow, List.length_append]
      omega
    have hs := readFrom_encodeSegment_append position (encodeRow segments ++ rest)
      (hsolid s List.mem_cons_self) (hfits s List.mem_cons_self)
    have hrest := ih (position + (encodeSegment s).length)
      (fun t ht => hsolid t (List.mem_cons_of_mem s ht))
      (fun t ht => hfits t (List.mem_cons_of_mem s ht))
    rw [hlength, hrow, List.append_assoc]
    simp only [hs, hrest, List.cons_append]

end Front

/-! ## Where a segment can be cut -/

/-- A strict front of a segment's bytes.  A long field can be cut behind its zero and
behind its high byte. -/
inductive CutIn (s : Segment) : List UInt8 → Prop where
  | start : CutIn s []
  | chunkMark (hlong : 256 ≤ s.chunk.length) : CutIn s [0]
  | chunkHigh (hlong : 256 ≤ s.chunk.length) : CutIn s [0, UInt8.ofNat (s.chunk.length / 256)]
  | chunk {piece : List UInt8} (hpiece : piece <+: s.chunk) :
    CutIn s (encodeLength s.chunk.length ++ piece)
  | runMark (hlong : 256 ≤ s.run) : CutIn s (encodeLength s.chunk.length ++ (s.chunk ++ [0]))
  | runHigh (hlong : 256 ≤ s.run) :
    CutIn s (encodeLength s.chunk.length ++ (s.chunk ++ [0, UInt8.ofNat (s.run / 256)]))

theorem cases_of_prefix_append {part front back : List UInt8} (h : part <+: front ++ back) :
    (part <+: front ∧ part ≠ front) ∨ ∃ more, part = front ++ more ∧ more <+: back := by
  rcases List.prefix_or_prefix_of_prefix h (List.prefix_append front back) with hpart | hfront
  · by_cases heq : part = front
    · exact .inr ⟨[], by rw [heq, List.append_nil], List.nil_prefix⟩
    · exact .inl ⟨hpart, heq⟩
  · obtain ⟨more, rfl⟩ := hfront
    exact .inr ⟨more, rfl, (List.prefix_append_right_inj front).mp h⟩

theorem cases_of_prefix_encodeLength {n : Nat} {part : List UInt8} (h : part <+: encodeLength n)
    (hne : part ≠ encodeLength n) :
    part = [] ∨ 256 ≤ n ∧ (part = [0] ∨ part = [0, UInt8.ofNat (n / 256)]) := by
  by_cases hlong : 256 ≤ n
  · rw [encodeLength_long hlong] at h hne
    rcases List.prefix_cons_iff.mp h with rfl | ⟨first, rfl, hfirst⟩
    · exact .inl rfl
    · rcases List.prefix_cons_iff.mp hfirst with rfl | ⟨second, rfl, hsecond⟩
      · exact .inr ⟨hlong, .inl rfl⟩
      · rcases List.prefix_cons_iff.mp hsecond with rfl | ⟨third, rfl, hthird⟩
        · exact .inr ⟨hlong, .inr rfl⟩
        · rw [List.prefix_nil.mp hthird] at hne
          exact absurd rfl hne
  · rw [encodeLength_short (Nat.lt_of_not_le hlong)] at h hne
    rcases List.prefix_cons_iff.mp h with rfl | ⟨first, rfl, hfirst⟩
    · exact .inl rfl
    · rw [List.prefix_nil.mp hfirst] at hne
      exact absurd rfl hne

theorem cutIn_of_prefix {s : Segment} {part : List UInt8} (h : part <+: encodeSegment s)
    (hne : part ≠ encodeSegment s) : CutIn s part := by
  rw [encodeSegment, List.append_assoc] at h hne
  rcases cases_of_prefix_append h with ⟨hpart, hpart'⟩ | ⟨more, rfl, hmore⟩
  · rcases cases_of_prefix_encodeLength hpart hpart' with rfl | ⟨hlong, rfl | rfl⟩
    · exact .start
    · exact .chunkMark hlong
    · exact .chunkHigh hlong
  · rcases cases_of_prefix_append hmore with ⟨hpiece, -⟩ | ⟨field, rfl, hfield⟩
    · exact .chunk hpiece
    · have hfield' : field ≠ encodeLength s.run := fun heq => hne (by rw [heq])
      rcases cases_of_prefix_encodeLength hfield hfield' with rfl | ⟨hlong, rfl | rfl⟩
      · rw [List.append_nil]
        exact .chunk (List.prefix_refl _)
      · exact .runMark hlong
      · exact .runHigh hlong

/-- A body that is cut off is whole segments and a front of the next one. -/
theorem exists_cutIn {segments : List Segment} {cut : List UInt8} (h : cut <+: encodeRow segments)
    (hne : cut ≠ encodeRow segments) :
    ∃ front s back part, segments = front ++ s :: back ∧ cut = encodeRow front ++ part ∧
      CutIn s part := by
  induction segments generalizing cut with
  | nil => exact absurd (List.prefix_nil.mp h) hne
  | cons s segments ih =>
    have hrow : encodeRow (s :: segments) = encodeSegment s ++ encodeRow segments := rfl
    rw [hrow] at h hne
    rcases cases_of_prefix_append h with ⟨hpart, hpart'⟩ | ⟨more, rfl, hmore⟩
    · exact ⟨[], s, segments, cut, rfl, rfl, cutIn_of_prefix hpart hpart'⟩
    · have hmore' : more ≠ encodeRow segments := fun heq => hne (by rw [heq])
      obtain ⟨front, t, back, part, rfl, rfl, hpart⟩ := ih hmore hmore'
      exact ⟨s :: front, t, back, part, rfl, (List.append_assoc _ _ _).symm, hpart⟩

/-! ## What is read of a cut segment -/

section Read

variable {s : Segment} (position : Nat)

/-- A lone zero is the length of an empty chunk, behind which a run is missing. -/
theorem readFrom_chunkMark :
    Contents.readFrom [] ⟨position, [0]⟩ = ⟨[], [], some (.truncatedLength (position + 1))⟩ := by
  have hd : Cursor.take? 0 ⟨position + 1, []⟩ = some ([], ⟨position + 1, []⟩) := rfl
  exact Contents.readFrom_of_missingRun rfl hd rfl

/-- The high byte of a chunk's length passes for a run. -/
theorem readFrom_chunkHigh {high : UInt8} (hhigh : high ≠ 0) :
    Contents.readFrom [] ⟨position, [0, high]⟩ = ⟨[⟨[], high.toNat⟩], [], none⟩ := by
  have hd : Cursor.take? 0 ⟨position + 1, [high]⟩ = some ([], ⟨position + 1, [high]⟩) := rfl
  have he := readLength?_of_ne_zero hhigh (position + 1) []
  rw [Contents.readFrom_of_segment rfl hd he, Contents.readFrom_of_end rfl]

theorem error_of_cut_chunk {piece : List UInt8} (hpiece : piece <+: s.chunk)
    (hchunk : s.chunk ≠ []) (hmax : s.chunk.length ≤ maxLength) :
    ∃ error, (Contents.readFrom [] ⟨position, encodeLength s.chunk.length ++ piece⟩).error =
      some error := by
  have hzero : s.chunk.length = 0 → piece.length < 2 :=
    fun h => absurd (List.eq_nil_of_length_eq_zero h) hchunk
  have hc := readLength?_encodeLength hmax hzero position
  cases hd : Cursor.take? s.chunk.length
      ⟨position + (encodeLength s.chunk.length).length, piece⟩ with
  | none =>
    rw [Contents.readFrom_of_cutChunk hc hd]
    exact ⟨_, rfl⟩
  | some p =>
    obtain ⟨chunk, e⟩ := p
    obtain ⟨hrest, hcount, -⟩ := Cursor.take?_eq_some_iff.mp hd
    have hle := hpiece.length_le
    have hrest' : piece = chunk ++ e.rest := hrest
    rw [hrest', List.length_append] at hle
    have hnil : e.rest = [] := List.eq_nil_of_length_eq_zero (by omega)
    rw [Contents.readFrom_of_missingRun hc hd (readLength?_eq_none_iff.mpr hnil)]
    exact ⟨_, rfl⟩

/-- A lone zero behind a chunk is its run. -/
theorem readFrom_runMark (hchunk : s.chunk ≠ []) (hmax : s.chunk.length ≤ maxLength) :
    Contents.readFrom [] ⟨position, encodeLength s.chunk.length ++ (s.chunk ++ [0])⟩ =
      ⟨[⟨s.chunk, 0⟩], [], none⟩ := by
  rw [readFrom_chunk_append position [0] hchunk hmax rfl, Contents.readFrom_of_end rfl]
  rfl

/-- The high byte of a run is left over, and passes for the length of a chunk. -/
theorem error_of_runHigh {high : UInt8} (hhigh : high ≠ 0) (hchunk : s.chunk ≠ [])
    (hmax : s.chunk.length ≤ maxLength) :
    ∃ error, (Contents.readFrom []
      ⟨position, encodeLength s.chunk.length ++ (s.chunk ++ [0, high])⟩).error = some error := by
  have hpos : 0 < high.toNat := by
    apply Nat.pos_of_ne_zero
    exact fun h => hhigh (UInt8.toNat_inj.mp h)
  have hc (position : Nat) := readLength?_of_ne_zero hhigh position []
  have hd (position : Nat) : Cursor.take? high.toNat ⟨position, []⟩ = none :=
    Cursor.take?_eq_none_iff.mpr hpos
  rw [readFrom_chunk_append position [0, high] hchunk hmax rfl,
    Contents.readFrom_of_cutChunk (hc _) (hd _)]
  exact ⟨_, rfl⟩

theorem one_le_length_encodeLength (n : Nat) : 1 ≤ (encodeLength n).length := by
  unfold encodeLength
  split
  · exact Nat.le_refl 1
  · exact Nat.succ_le_succ (Nat.zero_le _)

theorem length_encodeLength_long {n : Nat} (hlong : 256 ≤ n) : (encodeLength n).length = 3 := by
  rw [encodeLength_long hlong]
  rfl

theorem long_of_encodeLength {n : Nat} {high low : UInt8} (h : encodeLength n = [0, high, low]) :
    256 ≤ n := by
  apply Nat.le_of_not_lt
  intro hshort
  rw [encodeLength_short hshort] at h
  simp only [List.cons.injEq, reduceCtorEq, and_false] at h

theorem high_ne_zero {n : Nat} (hlong : 256 ≤ n) (hmax : n ≤ maxLength) :
    UInt8.ofNat (n / 256) ≠ 0 := by
  unfold maxLength at hmax
  exact ofNat_ne_zero (by omega)

/-- Of a cut segment, a front is given back or nothing, unless the cut lies between the
two bytes of the chunk's length.  Wherever it is not noticed, two bytes are missing at
least. -/
theorem read_of_cutIn {part : List UInt8} (h : CutIn s part) (hsolid : Solid s)
    (hfits : fits s = true) :
    (∃ error, (Contents.readFrom [] ⟨position, part⟩).error = some error) ∨
      (Contents.readFrom [] ⟨position, part⟩).error = none ∧
        part.length + 2 ≤ (encodeSegment s).length ∧
        ((∃ piece, (Contents.readFrom [] ⟨position, part⟩).bytes = piece ∧ piece <+: s.bytes ∧
            piece ≠ s.bytes) ∨
          256 ≤ s.chunk.length ∧ part = [0, UInt8.ofNat (s.chunk.length / 256)]) := by
  obtain ⟨hchunk, hrun⟩ := hsolid
  obtain ⟨hmax, hrunMax⟩ := fits_iff.mp hfits
  have hlength := List.length_pos_iff.mpr hchunk
  have hbytes : s.bytes.length = s.chunk.length + s.run := by
    rw [Segment.bytes, List.length_append, List.length_replicate]
  have hsegment : (encodeSegment s).length =
      (encodeLength s.chunk.length).length + s.chunk.length + (encodeLength s.run).length := by
    simp only [encodeSegment, List.length_append]
  have hchunkField := one_le_length_encodeLength s.chunk.length
  have hrunField := one_le_length_encodeLength s.run
  cases h with
  | start =>
    have hread : Contents.readFrom [] ⟨position, []⟩ = ⟨[], [], none⟩ := Contents.readFrom_of_end rfl
    rw [hread]
    refine .inr ⟨rfl, ?_, .inl ⟨[], rfl, List.nil_prefix, ?_⟩⟩
    · rw [List.length_nil]
      omega
    · intro hnil
      rw [← hnil, List.length_nil] at hbytes
      omega
  | chunkMark hlong =>
    rw [readFrom_chunkMark]
    exact .inl ⟨_, rfl⟩
  | chunkHigh hlong =>
    rw [readFrom_chunkHigh position (high_ne_zero hlong hmax)]
    have hthree := length_encodeLength_long hlong
    refine .inr ⟨rfl, ?_, .inr ⟨hlong, rfl⟩⟩
    simp only [List.length_cons, List.length_nil]
    omega
  | chunk hpiece => exact .inl (error_of_cut_chunk position hpiece hchunk hmax)
  | runMark hlong =>
    rw [readFrom_runMark position hchunk hmax]
    have hthree := length_encodeLength_long hlong
    refine .inr ⟨rfl, ?_, .inl ⟨s.chunk, ?_, List.prefix_append _ _, ?_⟩⟩
    · rw [List.length_append, List.length_append, List.length_singleton]
      omega
    · simp [Contents.bytes, Segment.join, Segment.bytes]
    · intro hwhole
      rw [← hwhole] at hbytes
      omega
  | runHigh hlong =>
    exact .inl (error_of_runHigh position (high_ne_zero hlong hrunMax) hchunk hmax)

end Read

/-! ## Bodies that are cut -/

/-- A body of `data` ends between the two bytes of the length of a chunk.  What stands
before that chunk is `before`, and the first of the two bytes is `high`. -/
def SplitsLength (data cut before : List UInt8) (high : UInt8) : Prop :=
  ∃ front s back low, segments data = front ++ s :: back ∧ before = Segment.join front ∧
    encodeLength s.chunk.length = [0, high, low] ∧ cut = header :: (encodeRow front ++ [0, high])

theorem join_append (front back : List Segment) :
    Segment.join (front ++ back) = Segment.join front ++ Segment.join back :=
  List.flatMap_append

theorem encodeRow_append (front back : List Segment) :
    encodeRow (front ++ back) = encodeRow front ++ encodeRow back :=
  List.flatMap_append

theorem eq_of_segments {data : List UInt8} {front back : List Segment} {s : Segment}
    (h : segments data = front ++ s :: back) :
    data = Segment.join front ++ (s.bytes ++ Segment.join back) := by
  rw [← Segment.join_segments data, h, join_append]
  rfl

theorem forall_of_segments {p : Segment → Prop} {data : List UInt8} {front back : List Segment}
    {s : Segment} (hp : ∀ t ∈ segments data, p t) (h : segments data = front ++ s :: back) :
    (∀ t ∈ front, p t) ∧ p s := by
  rw [h] at hp
  exact ⟨fun t ht => hp t (List.mem_append_left _ ht),
    hp s (List.mem_append_right _ List.mem_cons_self)⟩

theorem expand_encodeRow_append {segments : List Segment} (hsolid : ∀ s ∈ segments, Solid s)
    (hfits : ∀ s ∈ segments, fits s = true) (rest : List UInt8) :
    let behind := Contents.readFrom [] ⟨1 + (encodeRow segments).length, rest⟩
    expand (header :: (encodeRow segments ++ rest)) =
      behind.error.elim (.ok (Segment.join segments ++ behind.bytes)) .error := by
  have hread := readFrom_encodeRow_append 1 rest hsolid hfits
  simp only [expand, Contents.read_header, hread, Contents.bytes, join_append, List.append_assoc]

section Cut

variable {data : List UInt8} (hsolid : ∀ s ∈ segments data, Solid s)
  (hfits : ∀ s ∈ segments data, fits s = true)
include hsolid hfits

/-- A cut between the bytes of a chunk's length makes up as many zeros as its high byte
says. -/
theorem expand_of_splitsLength {cut before : List UInt8} {high : UInt8}
    (h : SplitsLength data cut before high) :
    before <+: data ∧ expand cut = .ok (before ++ List.replicate high.toNat 0) := by
  obtain ⟨front, s, back, low, hsegments, rfl, hlength, rfl⟩ := h
  obtain ⟨hfrontSolid, hsSolid⟩ := forall_of_segments hsolid hsegments
  obtain ⟨hfrontFits, hsFits⟩ := forall_of_segments hfits hsegments
  have hlong := long_of_encodeLength hlength
  have hhigh : high ≠ 0 := by
    rw [encodeLength_long hlong] at hlength
    simp only [List.cons.injEq] at hlength
    rw [← hlength.2.1]
    exact high_ne_zero hlong (fits_iff.mp hsFits).1
  constructor
  · rw [eq_of_segments hsegments]
    exact List.prefix_append _ _
  · rw [expand_encodeRow_append hfrontSolid hfrontFits, readFrom_chunkHigh _ hhigh]
    simp [Contents.bytes, Segment.join, Segment.bytes]

theorem expand_of_cut {cut : List UInt8} (hcut : cut <+: encode (segments data))
    (hstrict : cut ≠ encode (segments data)) :
    (∃ error, expand cut = .error error) ∨
      cut.length + 2 ≤ (encode (segments data)).length ∧
        ((∃ out, expand cut = .ok out ∧ out <+: data ∧ out ≠ data) ∨
          ∃ before high, SplitsLength data cut before high) := by
  rw [encode] at hcut hstrict ⊢
  rcases List.prefix_cons_iff.mp hcut with rfl | ⟨row, rfl, hrow⟩
  · exact .inl ⟨_, rfl⟩
  have hrow' : row ≠ encodeRow (segments data) := fun heq => hstrict (by rw [heq])
  obtain ⟨front, s, back, part, hsegments, rfl, hpart⟩ := exists_cutIn hrow hrow'
  obtain ⟨hfrontSolid, hsSolid⟩ := forall_of_segments hsolid hsegments
  obtain ⟨hfrontFits, hsFits⟩ := forall_of_segments hfits hsegments
  have hexpand := expand_encodeRow_append hfrontSolid hfrontFits part
  rcases read_of_cutIn (1 + (encodeRow front).length) hpart hsSolid hsFits with
    ⟨error, herror⟩ | ⟨hnone, hlength, hout⟩
  · simp only [herror] at hexpand
    exact .inl ⟨error, hexpand⟩
  · simp only [hnone] at hexpand
    refine .inr ⟨?_, ?_⟩
    · have hwhole : (encodeRow (segments data)).length = (encodeRow front).length +
          ((encodeSegment s).length + (encodeRow back).length) := by
        rw [hsegments, encodeRow_append, List.length_append]
        show _ + (encodeSegment s ++ encodeRow back).length = _
        rw [List.length_append]
      simp only [List.length_cons, List.length_append]
      omega
    · rcases hout with ⟨piece, hpiece, hfront, hne⟩ | ⟨hlong, hsplit⟩
      · rw [hpiece] at hexpand
        have hdata := eq_of_segments hsegments
        refine .inl ⟨_, hexpand, ?_, ?_⟩
        · rw [hdata, List.prefix_append_right_inj]
          exact hfront.trans (List.prefix_append _ _)
        · intro heq
          have hle := hfront.length_le
          have hlengths := congrArg List.length (heq.trans hdata)
          simp only [List.length_append] at hlengths
          exact hne (hfront.eq_of_length (by omega))
      · rw [hsplit]
        exact .inr ⟨Segment.join front, _, front, s, back, _, hsegments, rfl,
          encodeLength_long hlong, rfl⟩

end Cut

end SerialVector.Body
