/-
Reading a body at once.

The contents of a body are its whole segments, the literal bytes of a chunk that
was begun but has no run, and the error at which reading stopped, if it did.  Even
where a body is cut off, what stands before the cut is kept, because a reader that
takes the body in pieces has already given it out.
-/
import SerialVector.Body.Error
import SerialVector.Body.Pack

namespace SerialVector.Body

structure Contents where
  segments : List Segment
  /-- The literal bytes behind the last whole segment. -/
  tail : List UInt8
  error : Option BodyError
  deriving DecidableEq

namespace Contents

def bytes (c : Contents) : List UInt8 := Segment.join c.segments ++ c.tail

/-- The contents from a cursor on, behind the segments collected so far. -/
def readFrom (collected : List Segment) (c : Cursor) : Contents :=
  match _hc : readLength? c with
  | none => ⟨collected.reverse, [], none⟩
  | some (count, d) =>
    match _hd : d.take? count with
    | none => ⟨collected.reverse, d.rest, some (.truncatedChunk d.position count)⟩
    | some (chunk, e) =>
      match _he : readLength? e with
      | none => ⟨collected.reverse, chunk, some (.truncatedLength e.position)⟩
      | some (run, f) => readFrom (⟨chunk, run⟩ :: collected) f
termination_by c.remaining
decreasing_by
  have h1 := remaining_lt_of_readLength? _hc
  have h2 := (Cursor.take?_eq_some_iff.mp _hd).1
  have h3 := remaining_lt_of_readLength? _he
  have h4 : d.remaining = chunk.length + e.remaining := by
    simp only [Cursor.remaining, h2, List.length_append]
  omega

theorem readFrom_eq (collected : List Segment) (c : Cursor) :
    readFrom collected c =
      ⟨collected.reverse ++ (readFrom [] c).segments, (readFrom [] c).tail,
        (readFrom [] c).error⟩ := by
  induction hn : c.remaining using Nat.strongRecOn generalizing collected c with
  | ind n ih =>
    rw [readFrom, readFrom]
    split
    · simp
    · rename_i count d hc
      split
      · simp
      · rename_i chunk e hd
        split
        · simp
        · rename_i run f he
          have h1 := remaining_lt_of_readLength? hc
          have h2 := (Cursor.take?_eq_some_iff.mp hd).1
          have h3 := remaining_lt_of_readLength? he
          have h4 : d.remaining = chunk.length + e.remaining := by
            simp only [Cursor.remaining, h2, List.length_append]
          have hlt : f.remaining < n := by omega
          rw [ih f.remaining hlt _ f rfl, ih f.remaining hlt [_] f rfl]
          simp

theorem readFrom_of_segment {c d e f : Cursor} {count run : Nat} {chunk : List UInt8}
    (hc : readLength? c = some (count, d)) (hd : d.take? count = some (chunk, e))
    (he : readLength? e = some (run, f)) :
    readFrom [] c =
      ⟨⟨chunk, run⟩ :: (readFrom [] f).segments, (readFrom [] f).tail, (readFrom [] f).error⟩ := by
  rw [readFrom]
  split
  · simp_all
  · rename_i count' d' hc'
    rw [hc] at hc'
    simp only [Option.some.injEq, Prod.mk.injEq] at hc'
    obtain ⟨rfl, rfl⟩ := hc'
    split
    · simp_all
    · rename_i chunk' e' hd'
      rw [hd] at hd'
      simp only [Option.some.injEq, Prod.mk.injEq] at hd'
      obtain ⟨rfl, rfl⟩ := hd'
      split
      · simp_all
      · rename_i run' f' he'
        rw [he] at he'
        simp only [Option.some.injEq, Prod.mk.injEq] at he'
        obtain ⟨rfl, rfl⟩ := he'
        rw [readFrom_eq]
        simp

theorem readFrom_of_end {c : Cursor} (hc : readLength? c = none) :
    readFrom [] c = ⟨[], [], none⟩ := by
  rw [readFrom]
  split <;> simp_all

def read (body : List UInt8) : Contents :=
  match body with
  | [] => ⟨[], [], some .missingHeader⟩
  | b :: rest =>
    if b = header then readFrom [] ⟨1, rest⟩ else ⟨[], [], some (.unsupportedHeader b)⟩

end Contents

/-- The bytes that a body was packed from. -/
def expand (body : List UInt8) : Except BodyError (List UInt8) :=
  let contents := Contents.read body
  contents.error.elim (.ok contents.bytes) .error

end SerialVector.Body
