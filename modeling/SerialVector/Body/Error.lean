/-
Why a body cannot be read.
-/
import SerialVector.FileError
import SerialVector.Text.Hexadecimal

namespace SerialVector

inductive BodyError where
  | missingHeader
  | unsupportedHeader (header : UInt8)
  /-- The body ends where a length is due. -/
  | truncatedLength (offset : Nat)
  /-- The body ends inside a chunk of `length` bytes that begins at `offset`. -/
  | truncatedChunk (offset length : Nat)
  | unreadable (kind : FileError.Kind)
  deriving DecidableEq

namespace BodyError

def kind : BodyError → String
  | missingHeader => "MissingHeader"
  | unsupportedHeader _ => "UnsupportedHeader"
  | truncatedLength _ => "TruncatedLength"
  | truncatedChunk .. => "TruncatedChunk"
  | unreadable _ => "Io"

def message : BodyError → String
  | missingHeader => "CSVF body has no header byte"
  | unsupportedHeader header =>
    s!"Unsupported CSVF header {Text.hexadecimal 2 header.toNat}"
  | truncatedLength offset => s!"Length field at offset {offset} is incomplete"
  | truncatedChunk offset length => s!"Chunk of {length} bytes at offset {offset} runs past the end"
  | unreadable cause => cause.message

def dump (error : BodyError) : String :=
  match error with
  | missingHeader => error.kind
  | unsupportedHeader header => Text.applied error.kind [toString header.toNat]
  | truncatedLength offset => Text.record error.kind [("offset", toString offset)]
  | truncatedChunk offset length =>
    Text.record error.kind [("offset", toString offset), ("len", toString length)]
  | unreadable cause => Text.applied error.kind [cause.name]

end BodyError
end SerialVector
