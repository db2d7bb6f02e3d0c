/-
A file system as a value.

The files lie below one working directory.  A path is walked name by name, each
step asking that the place it starts from is a directory, and only then is the
place it ends at looked at.  What lies outside the working directory is a directory
with nothing in it.
-/
import SerialVector.Disk
import SerialVector.PathName

namespace SerialVector

inductive FileSystem.Node where
  | directory
  | file (bytes : List UInt8)
  deriving DecidableEq

/-- Nodes under the names that lead to them from the working directory. -/
structure FileSystem where
  nodes : List (List String × FileSystem.Node)

namespace FileSystem

def empty : FileSystem := ⟨[]⟩

/-- The node at a place.  The working directory itself is always there. -/
def node? (fs : FileSystem) (place : List String) : Option Node :=
  match place with
  | [] => some .directory
  | place => fs.nodes.lookup place

def put (fs : FileSystem) (place : List String) (node : Node) : FileSystem :=
  ⟨(place, node) :: fs.nodes.filter fun entry => entry.1 ≠ place⟩

/-- A place that a path leads to.  There may be nothing at it. -/
inductive Place where
  | inside (names : List String)
  | outside
  deriving DecidableEq

/-- The longest name of a node, in bytes. -/
def maxName : Nat := 255

/-- The longest path that is walked, in bytes. -/
def maxPath : Nat := 4095

/-- One name further, from a place that has to be a directory. -/
def step (fs : FileSystem) (name : String) : Place → Except FileError Place
  | .outside =>
    if name = "." ∨ name = ".." then .ok .outside
    else if maxName < name.utf8ByteSize then .error .nameTooLong
    else .error .noSuchFile
  | .inside names =>
    match fs.node? names with
    | none => .error .noSuchFile
    | some (.file _) => .error .notADirectory
    | some .directory =>
      if name = "." then .ok (.inside names)
      else if name = ".." then
        if names = [] then .ok .outside else .ok (.inside names.dropLast)
      else if maxName < name.utf8ByteSize then .error .nameTooLong
      else .ok (.inside (names ++ [name]))

/-- What is wrong with the text of a path, whatever there is in the file system. -/
def pathError? (path : String) : Option FileError :=
  if path.toList.contains '\x00' then some .nulInName
  else if path = "" then some .noSuchFile
  else if maxPath < path.utf8ByteSize then some .nameTooLong
  else none

def follow (fs : FileSystem) (path : String) (names : List String) : Except FileError Place :=
  match pathError? path with
  | some error => .error error
  | none =>
    let origin := if PathName.isAbsolute path then .outside else .inside []
    names.foldlM (fun place name => fs.step name place) origin

def walk (fs : FileSystem) (path : String) : Except FileError Place :=
  fs.follow path (PathName.components path)

def read (fs : FileSystem) (path : String) : Except FileError (List UInt8) := do
  let place ← fs.walk path
  let place ← if PathName.asksDirectory path then fs.step "." place else pure place
  match place with
  | .outside => .error .isADirectory
  | .inside names =>
    match fs.node? names with
    | none => .error .noSuchFile
    | some .directory => .error .isADirectory
    | some (.file bytes) => .ok bytes

/-- The file system with a file replaced or made.  Its directory has to be there.  A
path that asks for a directory is refused before its last name is looked up. -/
def write (fs : FileSystem) (path : String) (bytes : List UInt8) : Except FileError FileSystem := do
  if PathName.asksDirectory path then
    let place ← fs.follow path (PathName.components path).dropLast
    let _ ← fs.step "." place
    .error .isADirectory
  else
    match ← fs.walk path with
    | .outside => .error .isADirectory
    | .inside names =>
      match fs.node? names with
      | some .directory => .error .isADirectory
      | _ => .ok (fs.put names (.file bytes))

/-- One name further, with a directory made where nothing is. -/
def enter (fs : FileSystem) (place : List String) (name : String) : FileSystem × List String :=
  if name = "." then (fs, place)
  else if name = ".." then (fs, place.dropLast)
  else
    let next := place ++ [name]
    match fs.node? next with
    | none => (fs.put next .directory, next)
    | some _ => (fs, next)

/-- Makes the directories along some names and gives the place of the last. -/
def makeDirectories (fs : FileSystem) (names : List String) : FileSystem × List String :=
  names.foldl (fun (fs, place) name => fs.enter place name) (fs, [])

/-- Adds a directory and those above it that are missing. -/
def addDirectory (fs : FileSystem) (path : String) : FileSystem :=
  (fs.makeDirectories (PathName.components path)).1

def addFile (fs : FileSystem) (path : String) (bytes : List UInt8) : FileSystem :=
  let names := PathName.components path
  let (grown, place) := fs.makeDirectories names.dropLast
  match names.getLast? with
  | none => grown
  | some name => grown.put (place ++ [name]) (.file bytes)

def files (fs : FileSystem) : List (String × List UInt8) :=
  fs.nodes.filterMap fun (names, node) =>
    match node with
    | .directory => none
    | .file bytes => some ("/".intercalate names, bytes)

def disk : Disk (StateM FileSystem) where
  read path := fun fs => (fs.read path, fs)
  write path bytes := fun fs =>
    match fs.write path bytes with
    | .ok changed => (.ok (), changed)
    | .error error => (.error error, fs)

end FileSystem
end SerialVector
