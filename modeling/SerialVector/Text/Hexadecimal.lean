/-
Numbers as hexadecimal text of a fixed width.
-/
namespace SerialVector.Text

/-- The last `width` hexadecimal digits of `n`, in capitals. -/
def hexDigits : Nat → Nat → List Char
  | 0, _ => []
  | width + 1, n => hexDigits width (n / 16) ++ [(Nat.digitChar (n % 16)).toUpper]

/-- The digits with the mark that a reader tells them by. -/
def hexadecimal (width n : Nat) : String := "0x" ++ String.ofList (hexDigits width n)

end SerialVector.Text
