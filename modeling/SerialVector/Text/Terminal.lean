/-
What a terminal shows of a text.

An escape and some characters behind it are a command, of which nothing is shown.
`visible` keeps what is shown, so that a text can go to a file without the commands
in it.  Only one thing is shown inside a command: white space, which a terminal
carries out at once, and with it what follows up to the next control.
-/
namespace SerialVector.Text.Terminal

/-- What a terminal is reading. -/
inductive Mode where
  | plain
  /-- Behind an escape. -/
  | escape
  /-- Behind an escape and a mark that wants a letter. -/
  | marked
  /-- A sequence of numbers and marks that a letter ends. -/
  | sequence
  /-- The head of a device string, before any number or mark. -/
  | deviceHead
  | deviceNumbers
  | deviceMarks
  /-- A string that a byte of its own ends. -/
  | string
  /-- A string that the bell ends. -/
  | title
  deriving DecidableEq

def isWithin (first last : Nat) (c : Char) : Bool := first ≤ c.toNat && c.toNat ≤ last

/-- Whether a string ends at a character.  The byte that ends it counts wherever it
stands, inside the encoding of another character too. -/
def endsString (c : Char) : Bool := (String.utf8EncodeChar c).contains 0x9C

namespace Mode

/-- The mode behind a character that is not shown. -/
def next (m : Mode) (c : Char) : Mode :=
  if c = '\x18' ∨ c = '\x1A' then plain
  else if c = '\x1B' then escape
  else
    match m with
    | plain => plain
    | escape =>
      if c = '[' then sequence
      else if c = ']' then title
      else if c = 'P' then deviceHead
      else if c = 'X' ∨ c = '^' ∨ c = '_' then string
      else if isWithin 0x20 0x2F c then marked
      else if isWithin 0x30 0x7E c then plain
      else escape
    | marked => if isWithin 0x30 0x7E c then plain else marked
    | sequence => if isWithin 0x40 0x7E c then plain else sequence
    | deviceHead =>
      if isWithin 0x20 0x2F c then deviceMarks
      else if isWithin 0x30 0x3F c then deviceNumbers
      else if isWithin 0x40 0x7E c then string
      else deviceHead
    | deviceNumbers =>
      if isWithin 0x20 0x2F c then deviceMarks
      else if isWithin 0x3C 0x7E c then string
      else deviceNumbers
    | deviceMarks => if isWithin 0x30 0x7E c then string else deviceMarks
    | string => if endsString c then plain else string
    | title => if c = '\x07' then plain else title

/-- Whether controls inside the mode are carried out.  A string takes them in. -/
def obeysControls : Mode → Bool
  | plain | escape | marked | sequence => true
  | deviceHead | deviceNumbers | deviceMarks | string | title => false

end Mode

def isWhiteControl (c : Char) : Bool := c = '\t' || c = '\n' || c = '\x0C' || c = '\r'

def isShown (c : Char) : Bool := isWhiteControl c || (0x20 ≤ c.toNat && c ≠ '\x7F')

structure State where
  mode : Mode
  /-- Whether white space has interrupted the command that the mode is of. -/
  interrupted : Bool
  deriving DecidableEq

namespace State

def start : State := ⟨.plain, false⟩

/-- The state behind a character, and whether the character is shown.  A character
beyond the first 128 that is shown ends an interrupted command for good. -/
def step (s : State) (c : Char) : State × Bool :=
  if s.mode = .plain ∨ s.interrupted then
    if isShown c then (if c.toNat < 0x80 then s else start, true)
    else (⟨s.mode.next c, false⟩, false)
  else if isWhiteControl c && s.mode.obeysControls then (⟨s.mode, true⟩, true)
  else (⟨s.mode.next c, false⟩, false)

def visible (s : State) : List Char → List Char
  | [] => []
  | c :: rest =>
    let (next, shown) := s.step c
    if shown then c :: next.visible rest else next.visible rest

end State

def visible (text : List Char) : List Char := State.start.visible text

end SerialVector.Text.Terminal
