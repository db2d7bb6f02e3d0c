/-
Quoted text.

A quoted text stands on one line and shows every character it holds.  What could
not be seen, or would change the look of what stands before it, is written by its
number.
-/
import SerialVector.Text.Extending
import SerialVector.Text.Unprintable

namespace SerialVector.Text

/-- Whether a character is written by its number. -/
def isHidden (c : Char) : Bool :=
  unprintable.contains c || extending.contains c || fillers.contains c

def quoteChar (c : Char) : List Char :=
  if c = '"' then ['\\', '"']
  else if c = '\\' then ['\\', '\\']
  else if c = '\t' then ['\\', 't']
  else if c = '\n' then ['\\', 'n']
  else if c = '\r' then ['\\', 'r']
  else if c = '\x00' then ['\\', '0']
  else if isHidden c then "\\u\x7b".toList ++ Nat.toDigits 16 c.toNat ++ ['\x7d']
  else [c]

def quoted (text : String) : String :=
  "\"" ++ String.ofList (text.toList.flatMap quoteChar) ++ "\""

end SerialVector.Text
