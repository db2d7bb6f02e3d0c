/-
What a command line asks for.

The first word names the task.  Behind it, options and the one input may stand in
any order.  A double dash ends the options, and all words behind it are inputs.
Whatever is not understood, stands twice or is missing is refused as a whole.
-/
import SerialVector.CommandLine.Numeral
import SerialVector.Text.Literal
import SerialVector.Text.Quoted

namespace SerialVector.CommandLine

inductive Task where
  | convert (input : String) (output : Option String) (noSwap : Bool) (maxBuffer : Option Nat)
  | expand (input : String) (output : Option String)
  deriving DecidableEq

def Task.dump : Task → String
  | convert input output noSwap maxBuffer =>
    Text.record "Convert"
      [("input", Text.quoted input), ("output", Text.optional (output.map Text.quoted)),
        ("no_swap", toString noSwap), ("max_buffer", Text.optional (maxBuffer.map toString))]
  | expand input output =>
    Text.record "Expand"
      [("input", Text.quoted input), ("output", Text.optional (output.map Text.quoted))]

inductive Verb where
  | convert
  | expand
  deriving DecidableEq

def Verb.ofName? : String → Option Verb
  | "convert" => some .convert
  | "expand" => some .expand
  | _ => none

inductive Setting where
  | output
  | maxBuffer
  deriving DecidableEq

inductive Word where
  | plain (text : String)
  | endOfOptions
  | noSwap
  /-- An option, with its value if that is part of the word. -/
  | setting (setting : Setting) (value : Option String)
  | unknown
  deriving DecidableEq

namespace Word

/-- A long option behind its two dashes, for which `value` follows an equals sign. -/
def ofLong (verb : Verb) (name : String) (value : Option String) : Word :=
  match verb, name, value with
  | _, "output", value => .setting .output value
  | .convert, "max-buffer", value => .setting .maxBuffer value
  | .convert, "no-swap", none => .noSwap
  | _, _, _ => .unknown

/-- The value that is joined to a short option.  An equals sign may stand between. -/
def joined : List Char → Option String
  | [] => none
  | '=' :: value => some (String.ofList value)
  | value => some (String.ofList value)

/-- A short option behind its dash. -/
def ofShort (verb : Verb) (letter : Char) (rest : List Char) : Word :=
  match verb, letter with
  | _, 'o' => .setting .output (joined rest)
  | .convert, 'm' => .setting .maxBuffer (joined rest)
  | _, _ => .unknown

def ofString (verb : Verb) (text : String) : Word :=
  match text.toList with
  | ['-', '-'] => .endOfOptions
  | '-' :: '-' :: long =>
    let name := String.ofList (long.takeWhile (· ≠ '='))
    match long.dropWhile (· ≠ '=') with
    | [] => ofLong verb name none
    | _ :: value => ofLong verb name (some (String.ofList value))
  | '-' :: letter :: rest => ofShort verb letter rest
  | _ => .plain text

end Word

/-- What was understood of a command line so far. -/
structure Draft where
  input : Option String
  output : Option String
  noSwap : Bool
  maxBuffer : Option Nat
  deriving DecidableEq

namespace Draft

def blank : Draft := ⟨none, none, false, none⟩

def setInput (d : Draft) (path : String) : Option Draft :=
  if d.input.isSome ∨ path = "" then none else some { d with input := some path }

def setNoSwap (d : Draft) : Option Draft :=
  if d.noSwap then none else some { d with noSwap := true }

def set (d : Draft) (setting : Setting) (value : String) : Option Draft :=
  match setting with
  | .output =>
    if d.output.isSome ∨ value = "" then none else some { d with output := some value }
  | .maxBuffer =>
    if d.maxBuffer.isSome then none
    else (size? value).map fun size => { d with maxBuffer := some size }

/-- Whether a word of its own may be the value of an option.  A lone dash may, what
else begins with a dash may not. -/
def isValue (text : String) : Bool :=
  match text.toList with
  | '-' :: _ :: _ => false
  | _ => true

def read (verb : Verb) (d : Draft) : List String → Option Draft
  | [] => some d
  | text :: rest =>
    match Word.ofString verb text with
    | .plain path => (d.setInput path).bind (read verb · rest)
    | .endOfOptions => rest.foldlM setInput d
    | .noSwap => d.setNoSwap.bind (read verb · rest)
    | .setting setting (some value) => (d.set setting value).bind (read verb · rest)
    | .setting setting none =>
      match rest with
      | [] => none
      | value :: rest =>
        if isValue value then (d.set setting value).bind (read verb · rest) else none
    | .unknown => none

def task? (verb : Verb) (d : Draft) : Option Task :=
  d.input.map fun input =>
    match verb with
    | .convert => .convert input d.output d.noSwap d.maxBuffer
    | .expand => .expand input d.output

end Draft

/-- The task that a command line asks for, if it is one. -/
def Task.ofArguments? : List String → Option Task
  | [] => none
  | name :: rest =>
    (Verb.ofName? name).bind fun verb => (Draft.blank.read verb rest).bind (Draft.task? verb)

end SerialVector.CommandLine
