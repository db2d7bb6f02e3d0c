/-
Values written on one line as a constructor and its parts.

A diagnostic shows a value by the name it was built with.  A constructor without
parts is its name alone, one with unnamed parts takes them in round brackets, and
one with named parts in curly brackets.
-/
namespace SerialVector.Text

/-- A constructor with unnamed parts, as in `Some(3)`. -/
def applied (name : String) (parts : List String) : String :=
  name ++ "(" ++ ", ".intercalate parts ++ ")"

/-- A constructor with named parts, as in `Point` with `x: 1, y: 2` in curly brackets. -/
def record (name : String) (parts : List (String × String)) : String :=
  name ++ " \x7b " ++ ", ".intercalate (parts.map fun (part, value) => part ++ ": " ++ value) ++
    " \x7d"

def optional : Option String → String
  | none => "None"
  | some value => applied "Some" [value]

end SerialVector.Text
