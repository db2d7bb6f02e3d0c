/-
A place in a byte string.

A cursor holds the bytes still ahead, not the whole string and an index, so that
reading needs no bound proof and ends by the shrinking rest.  A read that asks for
too much returns nothing, and the reader keeps the cursor it had.
-/
import SerialVector.ConversionError

namespace SerialVector

structure Cursor where
  position : Nat
  rest : List UInt8
  deriving DecidableEq

namespace Cursor

def start (bytes : List UInt8) : Cursor := ⟨0, bytes⟩

def remaining (c : Cursor) : Nat := c.rest.length

def next? (c : Cursor) : Option (UInt8 × Cursor) :=
  match c.rest with
  | [] => none
  | b :: rest => some (b, ⟨c.position + 1, rest⟩)

/-- The next `count` bytes.  The test looks at the bytes taken, so that a read
costs what it takes and not what remains. -/
def take? (count : Nat) (c : Cursor) : Option (List UInt8 × Cursor) :=
  let taken := c.rest.take count
  if taken.length = count then some (taken, ⟨c.position + count, c.rest.drop count⟩) else none

theorem take?_eq_some_iff {count : Nat} {c d : Cursor} {bytes : List UInt8} :
    c.take? count = some (bytes, d) ↔
      c.rest = bytes ++ d.rest ∧ bytes.length = count ∧ d.position = c.position + count := by
  obtain ⟨p, rest⟩ := c
  obtain ⟨q, rest'⟩ := d
  unfold take?
  constructor
  · intro h
    by_cases hlen : (rest.take count).length = count
    · simp only [hlen, if_true, Option.some.injEq, Prod.mk.injEq, Cursor.mk.injEq] at h
      obtain ⟨rfl, rfl, rfl⟩ := h
      exact ⟨(List.take_append_drop count rest).symm, hlen, rfl⟩
    · simp only [hlen, if_false, reduceCtorEq] at h
  · rintro ⟨hrest, rfl, hpos⟩
    simp only at hrest hpos
    subst hrest hpos
    simp

theorem take?_eq_none_iff {count : Nat} {c : Cursor} :
    c.take? count = none ↔ c.remaining < count := by
  simp only [take?, remaining, List.length_take]
  split <;> simp <;> omega

/-- The next byte, where a string that ends here is a program cut short. -/
def nextByte (c : Cursor) : Except ConversionError (UInt8 × Cursor) :=
  c.next?.elim (.error (.truncated c.position)) .ok

def nextBytes (count : Nat) (c : Cursor) : Except ConversionError (List UInt8 × Cursor) :=
  (c.take? count).elim (.error (.truncated c.position)) .ok

end Cursor
end SerialVector
