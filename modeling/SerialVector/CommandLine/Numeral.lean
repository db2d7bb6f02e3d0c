/-
Sizes on a command line.

A size is decimal, or hexadecimal behind `0x`, and a plus sign may stand in front
of its digits.  It has to fit into 16 bits.
-/
namespace SerialVector.CommandLine

/-- The value of an ASCII digit, of either case, in a base up to 16. -/
def digit? (base : Nat) (c : Char) : Option Nat :=
  let value :=
    if '0' ≤ c ∧ c ≤ '9' then some (c.toNat - '0'.toNat)
    else if 'a' ≤ c ∧ c ≤ 'f' then some (c.toNat - 'a'.toNat + 10)
    else if 'A' ≤ c ∧ c ≤ 'F' then some (c.toNat - 'A'.toNat + 10)
    else none
  value.filter (· < base)

/-- The number that digits stand for.  There has to be one. -/
def ofDigits? (base : Nat) (digits : List Char) : Option Nat :=
  if digits = [] then none
  else digits.foldlM (fun n c => (digit? base c).map (n * base + ·)) 0

def withoutPlus : List Char → List Char
  | '+' :: digits => digits
  | digits => digits

def size? (text : String) : Option Nat :=
  let value :=
    match text.toList with
    | '0' :: 'x' :: digits => ofDigits? 16 (withoutPlus digits)
    | '0' :: 'X' :: digits => ofDigits? 16 (withoutPlus digits)
    | digits => ofDigits? 10 (withoutPlus digits)
  value.filter (· < 65536)

end SerialVector.CommandLine
