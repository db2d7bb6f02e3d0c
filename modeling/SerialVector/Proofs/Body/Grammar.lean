/-
The grammar of bodies, by offsets.

`FieldAt`, `Pairs` and `Stops` say what stands where in a body without reading it:
fields of lengths, pairs of a chunk and a run, and the place where no further pair is
whole.  Reading a body is then shown to find what the grammar says.
-/
import SerialVector.Proofs.Body.Contents
import SerialVector.Proofs.Body.Encoding
import SerialVector.Proofs.Cursor

namespace SerialVector.Body

/-- A length stands at an offset, in a field of a certain width.  A zero with fewer
than two bytes behind it is a length of its own. -/
inductive FieldAt (body : List UInt8) (offset : Nat) : Nat → Nat → Prop where
  | short {b : UInt8} (hb : body[offset]? = some b) (hne : b ≠ 0) : FieldAt body offset b.toNat 1
  | long {hi lo : UInt8} (hmark : body[offset]? = some 0) (hhi : body[offset + 1]? = some hi)
    (hlo : body[offset + 2]? = some lo) : FieldAt body offset (hi.toNat * 256 + lo.toNat) 3
  | last (hmark : body[offset]? = some 0) (hend : body.length < offset + 3) :
    FieldAt body offset 0 1

/-- From one offset to another stand whole pairs of a chunk and a run. -/
inductive Pairs (body : List UInt8) : Nat → List Segment → Nat → Prop where
  | nil (offset : Nat) : Pairs body offset [] offset
  | cons {offset length width run runWidth stop : Nat} {segments : List Segment}
    (hchunk : FieldAt body offset length width)
    (hrun : FieldAt body (offset + width + length) run runWidth)
    (hrest : Pairs body (offset + width + length + runWidth) segments stop) :
    Pairs body offset (⟨(body.drop (offset + width)).take length, run⟩ :: segments) stop

/-- What is left of a body at an offset where no whole pair stands: the literal bytes
of a chunk, and the error, unless nothing is left. -/
inductive Stops (body : List UInt8) (offset : Nat) : List UInt8 → Option BodyError → Prop where
  | whole (hend : offset = body.length) : Stops body offset [] none
  | inChunk {length width : Nat} (hchunk : FieldAt body offset length width)
    (hcut : body.length < offset + width + length) :
    Stops body offset (body.drop (offset + width))
      (some (.truncatedChunk (offset + width) length))
  | behindChunk {length width : Nat} (hchunk : FieldAt body offset length width)
    (hcut : offset + width + length = body.length) :
    Stops body offset (body.drop (offset + width)) (some (.truncatedLength body.length))

theorem getElem?_of_drop {body rest : List UInt8} {offset : Nat} (h : body.drop offset = rest)
    (i : Nat) : body[offset + i]? = rest[i]? := by
  rw [← h, List.getElem?_drop]

theorem drop_of_drop {body rest : List UInt8} {offset : Nat} (h : body.drop offset = rest)
    (i : Nat) : body.drop (offset + i) = rest.drop i := by
  rw [← h, List.drop_drop]

theorem length_of_drop {body rest : List UInt8} {offset : Nat} (h : body.drop offset = rest) :
    rest.length = body.length - offset := by
  rw [← h, List.length_drop]

theorem fieldAt_of_readLength? {body : List UInt8} {offset length : Nat} {d : Cursor}
    (h : readLength? ⟨offset, body.drop offset⟩ = some (length, d)) :
    ∃ width, FieldAt body offset length width ∧
      d = ⟨offset + width, body.drop (offset + width)⟩ := by
  generalize hrest : body.drop offset = rest at h
  match rest with
  | [] => cases h
  | b :: rest =>
    have hb : body[offset]? = some b := getElem?_of_drop hrest 0
    by_cases hzero : b = 0
    · subst hzero
      match rest with
      | hi :: lo :: rest =>
        cases h
        refine ⟨3, ?_, ?_⟩
        · rw [decode_pair]
          exact .long hb (getElem?_of_drop hrest 1) (getElem?_of_drop hrest 2)
        · rw [drop_of_drop hrest]
          rfl
      | [] =>
        cases h
        have hlength := length_of_drop hrest
        simp only [List.length_cons, List.length_nil] at hlength
        exact ⟨1, .last hb (by omega), by rw [drop_of_drop hrest]; rfl⟩
      | [a] =>
        cases h
        have hlength := length_of_drop hrest
        simp only [List.length_cons, List.length_nil] at hlength
        exact ⟨1, .last hb (by omega), by rw [drop_of_drop hrest]; rfl⟩
    · have hread : readLength? ⟨offset, b :: rest⟩ = some (b.toNat, ⟨offset + 1, rest⟩) := by
        rw [readLength?_of_ne_zero hzero]
      rw [hread] at h
      cases h
      exact ⟨1, .short hb hzero, by rw [drop_of_drop hrest]; rfl⟩

theorem offset_le_of_fieldAt {body : List UInt8} {offset length width : Nat}
    (h : FieldAt body offset length width) : offset + width ≤ body.length := by
  cases h with
  | short hb hne =>
    have hlt := (List.getElem?_eq_some_iff.mp hb).1
    omega
  | long hmark hhi hlo =>
    have hlt := (List.getElem?_eq_some_iff.mp hlo).1
    omega
  | last hmark hend =>
    have hlt := (List.getElem?_eq_some_iff.mp hmark).1
    omega

/-- What is read from an offset on are the pairs that stand there, up to where they
stop. -/
theorem exists_pairs_of_readFrom (body : List UInt8) (offset : Nat) (h : offset ≤ body.length) :
    ∃ stop,
      Pairs body offset (Contents.readFrom [] ⟨offset, body.drop offset⟩).segments stop ∧
      Stops body stop (Contents.readFrom [] ⟨offset, body.drop offset⟩).tail
        (Contents.readFrom [] ⟨offset, body.drop offset⟩).error := by
  induction hn : body.length - offset using Nat.strongRecOn generalizing offset with
  | ind n ih =>
    cases hchunk : readLength? ⟨offset, body.drop offset⟩ with
    | none =>
      have hnil : body.drop offset = [] := readLength?_eq_none_iff.mp hchunk
      have hend : offset = body.length := Nat.le_antisymm h (List.drop_eq_nil_iff.mp hnil)
      rw [Contents.readFrom_of_end hchunk]
      exact ⟨offset, .nil offset, .whole hend⟩
    | some p =>
      obtain ⟨length, d⟩ := p
      obtain ⟨width, hfield, rfl⟩ := fieldAt_of_readLength? hchunk
      have hbound := offset_le_of_fieldAt hfield
      cases htake : Cursor.take? length ⟨offset + width, body.drop (offset + width)⟩ with
      | none =>
        have hshort := Cursor.take?_eq_none_iff.mp htake
        simp only [Cursor.remaining, List.length_drop] at hshort
        rw [Contents.readFrom_of_cutChunk hchunk htake]
        exact ⟨offset, .nil offset, .inChunk hfield (by omega)⟩
      | some q =>
        obtain ⟨chunk, e⟩ := q
        obtain ⟨rfl, rfl, hlength⟩ := Cursor.eq_of_take?_drop htake hbound
        cases hrun : readLength? ⟨offset + width + length, body.drop (offset + width + length)⟩ with
        | none =>
          have hnil : body.drop (offset + width + length) = [] := readLength?_eq_none_iff.mp hrun
          have hend := List.drop_eq_nil_iff.mp hnil
          have hcut : offset + width + length = body.length := by omega
          have hall : (body.drop (offset + width)).take length = body.drop (offset + width) :=
            List.take_of_length_le (by rw [List.length_drop]; omega)
          rw [Contents.readFrom_of_missingRun hchunk htake hrun]
          refine ⟨offset, .nil offset, ?_⟩
          rw [hall]
          show Stops body offset _ (some (.truncatedLength (offset + width + length)))
          rw [hcut]
          exact .behindChunk hfield hcut
        | some r =>
          obtain ⟨run, f⟩ := r
          obtain ⟨runWidth, hrunField, rfl⟩ := fieldAt_of_readLength? hrun
          have hrunBound := offset_le_of_fieldAt hrunField
          have hpositive := remaining_lt_of_readLength? hrun
          simp only [Cursor.remaining, List.length_drop] at hpositive
          obtain ⟨stop, hpairs, hstops⟩ :=
            ih (body.length - (offset + width + length + runWidth)) (by omega)
              (offset + width + length + runWidth) hrunBound rfl
          rw [Contents.readFrom_of_segment hchunk htake hrun]
          exact ⟨stop, .cons hfield hrunField hpairs, hstops⟩

/-- A body whose header is right is read as pairs up to where they stop. -/
theorem exists_pairs_of_header {body : List UInt8} (h : body[0]? = some header) :
    ∃ stop, Pairs body 1 (Contents.read body).segments stop ∧
      Stops body stop (Contents.read body).tail (Contents.read body).error := by
  cases body with
  | nil => cases h
  | cons b rest =>
    obtain rfl : b = header := Option.some.inj h
    rw [Contents.read_header]
    exact exists_pairs_of_readFrom (header :: rest) 1 (by simp)

theorem read_of_unsupported {body : List UInt8} {b : UInt8} (h : body[0]? = some b)
    (hb : b ≠ header) : Contents.read body = ⟨[], [], some (.unsupportedHeader b)⟩ := by
  cases body with
  | nil => cases h
  | cons a rest =>
    obtain rfl : a = b := Option.some.inj h
    rw [Contents.read, if_neg hb]

/-- The header is the first thing looked at. -/
theorem header_cases (body : List UInt8) :
    body = [] ∨ (∃ b, body[0]? = some b ∧ b ≠ header) ∨ body[0]? = some header := by
  cases body with
  | nil => exact .inl rfl
  | cons b rest =>
    by_cases hb : b = header
    · exact .inr (.inr (congrArg some hb))
    · exact .inr (.inl ⟨b, rfl, hb⟩)

theorem pairs_of_error_read {body : List UInt8} {error : Option BodyError}
    (h : (Contents.read body).error = error) (hmissing : error ≠ some .missingHeader)
    (hheader : ∀ b, error ≠ some (.unsupportedHeader b)) :
    body[0]? = some header ∧ ∃ stop, Pairs body 1 (Contents.read body).segments stop ∧
      Stops body stop (Contents.read body).tail error := by
  rcases header_cases body with rfl | ⟨b, hfirst, hb⟩ | hfirst
  · exact absurd h.symm hmissing
  · rw [read_of_unsupported hfirst hb] at h
    exact absurd h.symm (hheader b)
  · rw [← h]
    exact ⟨hfirst, exists_pairs_of_header hfirst⟩

theorem exists_pairs_of_expand_error {body : List UInt8} {error : BodyError}
    (h : expand body = .error error) (hmissing : error ≠ .missingHeader)
    (hheader : ∀ b, error ≠ .unsupportedHeader b) :
    ∃ stop, Pairs body 1 (Contents.read body).segments stop ∧
      Stops body stop (Contents.read body).tail (some error) :=
  (pairs_of_error_read (expand_eq_error_iff.mp h) (by simpa using hmissing)
    (by simpa using hheader)).2

end SerialVector.Body
