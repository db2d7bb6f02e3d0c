/-
Text taken apart at a mark.
-/
namespace SerialVector.Text

/-- The parts between the occurrences of a mark.  Two marks in a row have an empty
part between them. -/
def parts (mark : Char) : List Char → List (List Char)
  | [] => [[]]
  | c :: rest =>
    match parts mark rest with
    | [] => [[c]]
    | part :: more => if c = mark then [] :: part :: more else (c :: part) :: more

end SerialVector.Text
