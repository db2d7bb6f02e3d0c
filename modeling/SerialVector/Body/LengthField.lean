/-
The length fields of a body.

A length below 256 is one byte.  A greater one is a zero and then two bytes.  A
zero can therefore mean either, and a reader takes it for the first of three bytes
wherever two more follow.  Only at the end of a body is it a length of its own, so
that some bodies do not read back as they were written.
-/
import SerialVector.BigEndian
import SerialVector.Cursor

namespace SerialVector.Body

/-- The greatest length that a field holds. -/
def maxLength : Nat := 65535

/-- The field of a length, unless none holds it. -/
def lengthField? (n : Nat) : Option (List UInt8) :=
  if n < 256 then some [UInt8.ofNat n]
  else if n ≤ maxLength then some (0 :: BigEndian.encode 2 n)
  else none

/-- The length that stands at a cursor, unless the body ends there. -/
def readLength? (c : Cursor) : Option (Nat × Cursor) :=
  match c.rest with
  | [] => none
  | 0 :: hi :: lo :: rest => some (BigEndian.decode [hi, lo], ⟨c.position + 3, rest⟩)
  | b :: rest => some (b.toNat, ⟨c.position + 1, rest⟩)

theorem readLength?_eq_none_iff {c : Cursor} : readLength? c = none ↔ c.rest = [] := by
  unfold readLength?
  constructor
  · intro h
    split at h
    · assumption
    · simp at h
    · simp at h
  · intro h
    simp [h]

theorem remaining_lt_of_readLength? {c d : Cursor} {n : Nat} (h : readLength? c = some (n, d)) :
    d.remaining < c.remaining := by
  unfold readLength? at h
  split at h
  · simp at h
  · rename_i hc
    simp only [Option.some.injEq, Prod.mk.injEq] at h
    rw [← h.2]
    simp only [Cursor.remaining, hc, List.length_cons]
    omega
  · rename_i hc
    simp only [Option.some.injEq, Prod.mk.injEq] at h
    rw [← h.2]
    simp only [Cursor.remaining, hc, List.length_cons]
    omega

end SerialVector.Body
