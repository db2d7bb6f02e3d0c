/-
Which numbers fit into how many bytes.

The bounds are powers of 256, so that this much of the theory of numbers as bytes
stands apart from the definitions.
-/
import Mathlib.Algebra.Group.Nat.Defs
import SerialVector.BigEndian

namespace SerialVector.BigEndian

theorem decode_encode (width n : Nat) : decode (encode width n) = n % 256 ^ width := by
  induction width generalizing n with
  | zero => simp [encode, Nat.mod_one]
  | succ width ih =>
    have hpow : 256 ^ (width + 1) = 256 * 256 ^ width := Nat.pow_succ'
    rw [encode, decode_concat, ih, UInt8.toNat_ofNat', hpow, Nat.mod_mul]
    omega

theorem decode_encode_of_lt {width n : Nat} (h : n < 256 ^ width) :
    decode (encode width n) = n := by
  rw [decode_encode, Nat.mod_eq_of_lt h]

theorem decode_lt (bytes : List UInt8) : decode bytes < 256 ^ bytes.length := by
  have h := decode_encode bytes.length (decode bytes)
  rw [encode_decode] at h
  rw [h]
  exact Nat.mod_lt _ (Nat.pow_pos (by decide))

end SerialVector.BigEndian
