/-
Sets of characters, given by ranges of character numbers.
-/
namespace SerialVector.Text

/-- Ranges of character numbers, both ends included. -/
structure CharRanges where
  ranges : List (Nat × Nat)

namespace CharRanges

def contains (s : CharRanges) (c : Char) : Bool :=
  s.ranges.any fun (first, last) => first ≤ c.toNat && c.toNat ≤ last

end CharRanges
end SerialVector.Text
