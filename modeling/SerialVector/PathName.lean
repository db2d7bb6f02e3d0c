/-
Names of files.

A path is a text with slashes.  Its last name is found from the end, past slashes
and lone dots that may stand behind it, and the extension of a name is what follows
its last dot, unless the dot begins the name.
-/
import SerialVector.Text.Parts

namespace SerialVector.PathName

def components (path : String) : List String :=
  ((Text.parts '/' path.toList).filter (· ≠ [])).map String.ofList

def isAbsolute (path : String) : Bool := path.toList.head? == some '/'

/-- Whether the path ends in a slash and so asks for a directory. -/
def asksDirectory (path : String) : Bool := path.toList.getLast? == some '/'

/-- The reversed path without what stands behind its last name. -/
def trim : List Char → List Char
  | '/' :: rest => trim rest
  | '.' :: '/' :: rest => trim rest
  | path => path

/-- The last name of a path, taken apart, and what stands before it. -/
structure Last where
  lead : List Char
  stem : List Char
  extension : Option (List Char)

/-- A name that is given from its end. -/
def Last.ofReversed (lead name : List Char) : Last :=
  match name.dropWhile (· ≠ '.') with
  | '.' :: c :: stem => ⟨lead, (c :: stem).reverse, some (name.takeWhile (· ≠ '.')).reverse⟩
  | _ => ⟨lead, name.reverse, none⟩

/-- The last name of a path, unless it stands for a directory by its place. -/
def last? (path : List Char) : Option Last :=
  let reversed := trim path.reverse
  let name := reversed.takeWhile (· ≠ '/')
  let lead := (reversed.dropWhile (· ≠ '/')).reverse
  if name = [] ∨ name = ['.'] ∨ name = ['.', '.'] then none
  else some (Last.ofReversed lead name)

/-- The path with another extension.  The length of the old one is taken off the
end of the path, with whatever stands behind the name still there, and then all
that follows the stem gives way to the new extension. -/
def withExtension (path extension : String) : String :=
  let whole := path.toList
  let cut :=
    match (last? whole).bind Last.extension with
    | none => whole
    | some old => whole.take (whole.length - old.length)
  match last? cut with
  | none => String.ofList cut
  | some last => String.ofList (last.lead ++ last.stem ++ '.' :: extension.toList)

end SerialVector.PathName
