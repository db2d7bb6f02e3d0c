/-
Why a program cannot be converted.

`message` is the wording for a reader, `kind` the word that scripts test, and
`dump` the diagnostic form.  `cause` is there only where the failure of something
else, a sink or a file, was passed on.
-/
import SerialVector.FileError
import SerialVector.Opcode
import SerialVector.Text.Hexadecimal

namespace SerialVector

inductive SizeError where
  /-- An operand of `got` bytes, where at most `max` are handled. -/
  | operandTooLarge (max got : Nat)
  /-- A vector size above the 16 bits that a body has for it. -/
  | sizeHighBits (value : UInt32)
  /-- A playback buffer of `got` bytes, where a player has `max`. -/
  | bufferLimit (max got : Nat)
  /-- A chunk or a zero run above the 16 bits of a length field. -/
  | lengthOverflow (got : Nat)
  deriving DecidableEq

inductive ConversionError where
  /-- A buffer of the size hinted at cannot exist. -/
  | capacityOverflow
  /-- The sink is full with `size` bytes in it. -/
  | sinkFull (size : Nat)
  | fileUnreadable (path : String) (cause : FileError)
  | unsupportedCommand (byte : UInt8) (offset : Nat)
  | unsupportedSize (error : SizeError)
  | unsupportedData (opcode : Opcode) (value : UInt8)
  /-- The program ends at `offset`, inside a command. -/
  | truncated (offset : Nat)
  deriving DecidableEq

namespace SizeError

def message : SizeError → String
  | operandTooLarge max got => s!"Operand of {got} bytes exceeds the maximum of {max}"
  | sizeHighBits value =>
    s!"XSDRSIZE of {Text.hexadecimal 8 value.toNat} does not fit into 16 bits"
  | bufferLimit max got =>
    s!"Program needs a {got} byte playback buffer, but only {max} are available"
  | lengthOverflow got => s!"Length {got} cannot be encoded in 16 bits"

def dump : SizeError → String
  | operandTooLarge max got =>
    Text.record "OperandTooLarge" [("max", toString max), ("got", toString got)]
  | sizeHighBits value => Text.record "SizeHighBits" [("value", toString value.toNat)]
  | bufferLimit max got =>
    Text.record "BufferLimit" [("max", toString max), ("got", toString got)]
  | lengthOverflow got => Text.record "LengthOverflow" [("got", toString got)]

end SizeError

namespace ConversionError

def kind : ConversionError → String
  | capacityOverflow => "BufferInit"
  | sinkFull _ => "BufferAppend"
  | fileUnreadable .. => "BufferLoad"
  | unsupportedCommand .. => "UnsupportedCommand"
  | unsupportedSize _ => "UnsupportedSize"
  | unsupportedData .. => "UnsupportedData"
  | truncated _ => "Truncated"

/-- What the failure was passed on from. -/
def cause : ConversionError → Option String
  | capacityOverflow =>
    some "memory allocation failed because the computed capacity exceeded the collection's maximum"
  | sinkFull size => some s!"Output buffer could not grow beyond {size} bytes"
  | fileUnreadable _ error => some error.message
  | unsupportedCommand .. | unsupportedSize _ | unsupportedData .. | truncated _ => none

def message (error : ConversionError) : String :=
  match error with
  | capacityOverflow => "Buffer could not be allocated: " ++ error.cause.getD ""
  | sinkFull _ => error.cause.getD ""
  | fileUnreadable path cause => s!"Unable to load {path}: {cause.message}"
  | unsupportedCommand byte offset =>
    let number := Text.hexadecimal 2 byte.toNat
    match Opcode.ofByte? byte with
    | some opcode => s!"Unsupported XSVF command {opcode.name} ({number}) at offset {offset}"
    | none => s!"Unknown XSVF command {number} at offset {offset}"
  | unsupportedSize error => error.message
  | unsupportedData opcode value =>
    s!"Unsupported {opcode.name} operand {Text.hexadecimal 2 value.toNat}"
  | truncated offset => s!"XSVF stream ends unexpectedly at offset {offset}"

def dump : ConversionError → String
  | capacityOverflow =>
    Text.applied "BufferInit" [Text.record "TryReserveError" [("kind", "CapacityOverflow")]]
  | sinkFull size =>
    Text.applied "BufferAppend" [Text.record "AppendError" [("len", toString size)]]
  | fileUnreadable path cause =>
    Text.record "BufferLoad" [("path", Text.quoted path), ("source", cause.dump)]
  | unsupportedCommand byte offset =>
    Text.record "UnsupportedCommand"
      [("opcode", toString byte.toNat), ("offset", toString offset)]
  | unsupportedSize error => Text.applied "UnsupportedSize" [error.dump]
  | unsupportedData opcode value =>
    Text.record "UnsupportedData" [("opcode", opcode.name), ("value", toString value.toNat)]
  | truncated offset => Text.record "Truncated" [("offset", toString offset)]

end ConversionError
end SerialVector
