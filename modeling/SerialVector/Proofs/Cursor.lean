/-
Reads from a cursor whose bytes are known.
-/
import SerialVector.Cursor

namespace SerialVector.Cursor

theorem take?_append (position : Nat) (bytes rest : List UInt8) :
    take? bytes.length ⟨position, bytes ++ rest⟩ =
      some (bytes, ⟨position + bytes.length, rest⟩) :=
  take?_eq_some_iff.mpr ⟨rfl, rfl, rfl⟩

theorem nextBytes_append (position : Nat) (bytes rest : List UInt8) :
    nextBytes bytes.length ⟨position, bytes ++ rest⟩ =
      .ok (bytes, ⟨position + bytes.length, rest⟩) := by
  rw [nextBytes, take?_append]
  rfl

/-- What is taken at an offset of a body, and where the reader then stands. -/
theorem eq_of_take?_drop {body chunk : List UInt8} {offset count : Nat} {d : Cursor}
    (h : take? count ⟨offset, body.drop offset⟩ = some (chunk, d))
    (hoffset : offset ≤ body.length) :
    chunk = (body.drop offset).take count ∧
      d = ⟨offset + count, body.drop (offset + count)⟩ ∧ offset + count ≤ body.length := by
  simp only [take?, List.drop_drop] at h
  split at h
  · rename_i hlength
    cases h
    rw [List.length_take, List.length_drop] at hlength
    exact ⟨rfl, rfl, by omega⟩
  · cases h

end SerialVector.Cursor
