/-
Standard error, line by line.

A log entry is written as a heading and its text.  Lines of the text behind the
first have no heading and are set in instead.  What a terminal would not show is
left out, and that may take in the line break at the end.  The line is then open,
and what is written next goes on in it.
-/
import SerialVector.Log
import SerialVector.Text.Parts
import SerialVector.Text.Terminal

namespace SerialVector.CommandLine

inductive Line where
  /-- A line with the heading of a log entry. -/
  | logged (line : LogLine)
  | plain (text : String)
  deriving DecidableEq

namespace Line

def render : Line → String
  | logged line => line.render
  | plain text => text

def extend (l : Line) (text : String) : Line :=
  match l with
  | logged line => logged { line with text := line.text ++ text }
  | plain start => plain (start ++ text)

end Line

/-- Sets lines in behind the first. -/
def setIn (text : List Char) : List Char :=
  text.flatMap fun c => if c = '\n' then "\n    ".toList else [c]

structure Passage where
  lines : List Line
  /-- Whether the last line has come to its end. -/
  ended : Bool

namespace Passage

def ofLog (entry : LogLine) : Passage :=
  let shown := Text.Terminal.visible (setIn entry.text.toList ++ ['\n'])
  let ended := shown.getLast? == some '\n'
  let lines :=
    match Text.parts '\n' (if ended then shown.dropLast else shown) with
    | [] => []
    | first :: more =>
      .logged { entry with text := String.ofList first } ::
        more.map fun part => .plain (String.ofList part)
  ⟨lines, ended⟩

/-- The lines of a passage and of all that is written behind it. -/
def follow (p : Passage) (behind : List Line) : List Line :=
  match p.ended, p.lines.getLast?, behind with
  | false, some last, next :: more => p.lines.dropLast ++ last.extend next.render :: more
  | _, _, _ => p.lines ++ behind

end Passage

/-- The lines that log entries and then the lines of a complaint come to. -/
def standardError (log : List LogLine) (complaints : List String) : List Line :=
  log.foldr (fun entry behind => (Passage.ofLog entry).follow behind) (complaints.map .plain)

end SerialVector.CommandLine
