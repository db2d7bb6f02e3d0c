/-
Bit counts and the bytes that hold them.
-/
namespace SerialVector

/-- The number of whole bytes that hold `bits` bits. -/
def bytesForBits (bits : Nat) : Nat := (bits + 7) / 8

theorem bytesForBits_le_iff {bits bytes : Nat} : bytesForBits bits ≤ bytes ↔ bits ≤ 8 * bytes := by
  unfold bytesForBits
  omega

end SerialVector
