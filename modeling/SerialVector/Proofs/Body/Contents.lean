/-
The ways in which reading a body ends.

`Contents.readFrom` stops at the end of the body, inside a chunk or behind one.  Each
way has its equation, beside those for a whole segment and for the end.
-/
import SerialVector.Body.Contents

namespace SerialVector.Body

namespace Contents

variable {c d e : Cursor} {count : Nat} {chunk : List UInt8}

theorem readFrom_of_cutChunk (hc : readLength? c = some (count, d)) (hd : d.take? count = none) :
    readFrom [] c = ⟨[], d.rest, some (.truncatedChunk d.position count)⟩ := by
  rw [readFrom]
  split
  · simp_all
  · rename_i count' d' hc'
    rw [hc] at hc'
    simp only [Option.some.injEq, Prod.mk.injEq] at hc'
    obtain ⟨rfl, rfl⟩ := hc'
    split
    · rfl
    · simp_all

theorem readFrom_of_missingRun (hc : readLength? c = some (count, d))
    (hd : d.take? count = some (chunk, e)) (he : readLength? e = none) :
    readFrom [] c = ⟨[], chunk, some (.truncatedLength e.position)⟩ := by
  rw [readFrom]
  split
  · simp_all
  · rename_i count' d' hc'
    rw [hc] at hc'
    simp only [Option.some.injEq, Prod.mk.injEq] at hc'
    obtain ⟨rfl, rfl⟩ := hc'
    split
    · simp_all
    · rename_i chunk' e' hd'
      rw [hd] at hd'
      simp only [Option.some.injEq, Prod.mk.injEq] at hd'
      obtain ⟨rfl, rfl⟩ := hd'
      split
      · rfl
      · simp_all

theorem read_header (rest : List UInt8) : read (header :: rest) = readFrom [] ⟨1, rest⟩ := by
  rw [read, if_pos rfl]

theorem bytes_of_segment (s : Segment) (segments : List Segment) (tail : List UInt8)
    (error : Option BodyError) :
    bytes ⟨s :: segments, tail, error⟩ = s.bytes ++ bytes ⟨segments, tail, error⟩ := by
  rw [bytes, bytes, ← List.append_assoc]
  rfl

/-- Where nothing is wrong with a body, its first chunk is whole, has a run behind it
and comes first. -/
theorem exists_chunk_of_error_eq_none (hc : readLength? c = some (count, d))
    (h : (readFrom [] c).error = none) :
    ∃ chunk rest behind, chunk.length = count ∧ d.rest = chunk ++ rest ∧ rest ≠ [] ∧
      (readFrom [] c).bytes = chunk ++ behind := by
  cases hd : d.take? count with
  | none =>
    rw [readFrom_of_cutChunk hc hd] at h
    cases h
  | some p =>
    obtain ⟨chunk, e⟩ := p
    obtain ⟨hrest, hlength, -⟩ := Cursor.take?_eq_some_iff.mp hd
    cases he : readLength? e with
    | none =>
      rw [readFrom_of_missingRun hc hd he] at h
      cases h
    | some q =>
      obtain ⟨run, f⟩ := q
      refine ⟨chunk, e.rest, List.replicate run 0 ++ (readFrom [] f).bytes, hlength, hrest, ?_, ?_⟩
      · intro hnil
        rw [readLength?_eq_none_iff.mpr hnil] at he
        cases he
      rw [readFrom_of_segment hc hd he, bytes_of_segment, Segment.bytes, List.append_assoc]

end Contents

theorem expand_eq_ok_iff {body out : List UInt8} :
    expand body = .ok out ↔
      (Contents.read body).error = none ∧ (Contents.read body).bytes = out := by
  cases h : (Contents.read body).error <;> simp [expand, h]

theorem expand_eq_error_iff {body : List UInt8} {error : BodyError} :
    expand body = .error error ↔ (Contents.read body).error = some error := by
  cases h : (Contents.read body).error <;> simp [expand, h]

end SerialVector.Body
