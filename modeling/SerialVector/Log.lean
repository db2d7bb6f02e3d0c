/-
What a conversion says about its own work.

Records are data and are worded at the end.  A reader that wants to know which
command begins where asks a record and need not take a line apart.
-/
import SerialVector.Opcode

namespace SerialVector

inductive LogLevel where
  | error
  | warn
  | info
  | debug
  | trace
  deriving DecidableEq

namespace LogLevel

def name : LogLevel → String
  | error => "ERROR"
  | warn => "WARN"
  | info => "INFO"
  | debug => "DEBUG"
  | trace => "TRACE"

/-- How much is let through by a filter at this level. -/
def rank : LogLevel → Nat
  | error => 1
  | warn => 2
  | info => 3
  | debug => 4
  | trace => 5

end LogLevel

structure LogLine where
  level : LogLevel
  source : String
  text : String
  deriving DecidableEq

def LogLine.render (l : LogLine) : String := s!"{l.level.name} {l.source}: {l.text}"

inductive LogRecord where
  | command (opcode : Opcode) (offset : Nat)
  /-- The vector size from here on. -/
  | sizeSet (bits : Nat)
  /-- Bytes that follow the end of the program. -/
  | ignored (count offset : Nat)
  | reordered (read written bufferSize : Nat)
  | packed (read segments written : Nat)
  | loaded (count : Nat) (path : String)
  deriving DecidableEq

namespace LogRecord

def level : LogRecord → LogLevel
  | command .. | sizeSet _ => .trace
  | ignored .. | reordered .. | packed .. | loaded .. => .debug

def source : LogRecord → String
  | command .. | sizeSet _ | ignored .. | reordered .. => "csvf_format::swap"
  | packed .. => "csvf_format::compress"
  | loaded .. => "csvf_format::convert"

def text : LogRecord → String
  | command opcode offset => s!"{opcode.name} at offset {offset}"
  | sizeSet bits => s!"XSDRSIZE set to {bits} bits"
  | ignored count offset => s!"Ignoring {count} bytes after XCOMPLETE at offset {offset}"
  | reordered read written bufferSize =>
    s!"Swapped {read} XSVF bytes into {written} bytes, max buffer size {bufferSize}"
  | packed read segments written =>
    s!"Compressed {read} bytes into {segments} segments, {written} bytes"
  | loaded count path => s!"Loaded {count} bytes from {path}"

def line (r : LogRecord) : LogLine := ⟨r.level, r.source, r.text⟩

end LogRecord
end SerialVector
