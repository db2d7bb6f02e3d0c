/-
Failures of reading and writing files.

A failure either comes from the operating system, which adds a number and a text
of its own, or is found before the system is asked, with a text or by its kind
alone.  Each is worded differently.
-/
import SerialVector.Text.Literal
import SerialVector.Text.Quoted

namespace SerialVector

inductive FileError.Kind where
  | notFound
  | permissionDenied
  | notADirectory
  | isADirectory
  | invalidName
  | unexpectedEnd
  | invalidInput
  | invalidData
  | timedOut
  | interrupted
  | writeZero
  | other
  deriving DecidableEq

inductive FileError where
  | plain (kind : FileError.Kind)
  | described (kind : FileError.Kind) (message : String)
  | system (code : Nat) (kind : FileError.Kind) (message : String)
  deriving DecidableEq

namespace FileError

namespace Kind

def all : List Kind :=
  [notFound, permissionDenied, notADirectory, isADirectory, invalidName, unexpectedEnd,
    invalidInput, invalidData, timedOut, interrupted, writeZero, other]

def name : Kind → String
  | notFound => "NotFound"
  | permissionDenied => "PermissionDenied"
  | notADirectory => "NotADirectory"
  | isADirectory => "IsADirectory"
  | invalidName => "InvalidFilename"
  | unexpectedEnd => "UnexpectedEof"
  | invalidInput => "InvalidInput"
  | invalidData => "InvalidData"
  | timedOut => "TimedOut"
  | interrupted => "Interrupted"
  | writeZero => "WriteZero"
  | other => "Other"

def ofName? (name : String) : Option Kind :=
  all.find? fun k => k.name == name

def message : Kind → String
  | notFound => "entity not found"
  | permissionDenied => "permission denied"
  | notADirectory => "not a directory"
  | isADirectory => "is a directory"
  | invalidName => "invalid filename"
  | unexpectedEnd => "unexpected end of file"
  | invalidInput => "invalid input parameter"
  | invalidData => "invalid data"
  | timedOut => "timed out"
  | interrupted => "operation interrupted"
  | writeZero => "write zero"
  | other => "other error"

end Kind

def noSuchFile : FileError := .system 2 .notFound "No such file or directory"

def notADirectory : FileError := .system 20 .notADirectory "Not a directory"

def isADirectory : FileError := .system 21 .isADirectory "Is a directory"

def nameTooLong : FileError := .system 36 .invalidName "File name too long"

/-- No name holds the character that marks where a name ends. -/
def nulInName : FileError :=
  .described .invalidInput "file name contained an unexpected NUL byte"

def message : FileError → String
  | .plain kind => kind.message
  | .described _ message => message
  | .system code _ message => s!"{message} (os error {code})"

def dump : FileError → String
  | .plain kind => Text.applied "Kind" [kind.name]
  | .described kind message =>
    Text.record "Error" [("kind", kind.name), ("message", Text.quoted message)]
  | .system code kind message =>
    Text.record "Os"
      [("code", toString code), ("kind", kind.name), ("message", Text.quoted message)]

end FileError
end SerialVector
