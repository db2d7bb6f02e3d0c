/-
Reading one command.

`Command.read` takes a command from a cursor under the vector size in force.  A
command that cannot be read leaves a fault: the error, and what had been done of
the command by then, because an opcode is written out before its operand is seen.
Every command read shortens what is left, which is what a reader of whole programs
ends by.
-/
import SerialVector.Command.Basic
import SerialVector.Cursor
import SerialVector.TapState

namespace SerialVector

structure Fault where
  /-- What was done of the command before it failed. -/
  events : List Event
  error : ConversionError

namespace Command

/-- The next byte, or the fault of a command that had come as far as `done`. -/
def expectByte (done : List Event) (c : Cursor) : Except Fault (UInt8 × Cursor) :=
  c.nextByte.mapError (Fault.mk done)

/-- The next `count` bytes, or the fault of a command that had come as far as
`done`. -/
def expectBytes (done : List Event) (count : Nat) (c : Cursor) :
    Except Fault (List UInt8 × Cursor) :=
  (c.nextBytes count).mapError (Fault.mk done)

/-- The operand of a shift without a compare.  Its opcode is written before the
operand is found too large. -/
def readShift (opcode : Opcode) (size : Nat) (c : Cursor) :
    Except Fault (Option Command × Cursor) :=
  let done := [Event.write [opcode.toByte]]
  let count := bytesForBits size
  if maxShift < count then
    .error ⟨done, .unsupportedSize (.operandTooLarge maxShift count)⟩
  else do
    let (operand, c) ← expectBytes done count c
    return (some (.raw opcode.toByte operand), c)

/-- The operands of a compare, `parts` vectors of the size in force.  They are
measured before anything is written. -/
def readCompare (opcode : Opcode) (parts : Nat) (command : Nat → List UInt8 → Command) (size : Nat)
    (c : Cursor) : Except Fault (Option Command × Cursor) :=
  let count := bytesForBits size
  if maxCompare < count then
    .error ⟨[], .unsupportedSize (.operandTooLarge maxCompare count)⟩
  else do
    let (operand, c) ← expectBytes [.write [opcode.toByte]] (parts * count) c
    return (some (command count operand), c)

/-- The state to end shifts in.  Only state 0 is played. -/
def readEnd (opcode : Opcode) (command : UInt8 → Command) (c : Cursor) :
    Except Fault (Option Command × Cursor) := do
  let (value, c) ← expectByte [] c
  if value = 0 then
    return (some (command value), c)
  else
    .error ⟨[.read 1], .unsupportedData opcode value⟩

/-- The operands of a command, from behind its opcode, which was read at `offset`.
The end of a program has none and is no command. -/
def readOperands (opcode : Opcode) (offset size : Nat) (c : Cursor) :
    Except Fault (Option Command × Cursor) :=
  let done := [Event.write [opcode.toByte]]
  match opcode with
  | .complete => .ok (none, c)
  | .tdoMask => readCompare opcode 1 (fun _ mask => .tdoMask mask) size c
  | .sdrTdo =>
    readCompare opcode 2 (fun count both => .sdrTdo (both.take count) (both.drop count)) size c
  | .sdrB | .sdrC | .sdrE => readShift opcode size c
  | .sir => do
    let (bits, c) ← expectByte done c
    let (value, c) ← expectBytes (done ++ [.read 1, .write [bits]]) (bytesForBits bits.toNat) c
    return (some (.sir bits value), c)
  | .runTest => do
    let (clocks, c) ← expectBytes done 4 c
    return (some (.runTest (UInt32.ofNat (BigEndian.decode clocks))), c)
  | .sdrSize => do
    let (value, c) ← expectBytes done 4 c
    let bits := UInt32.ofNat (BigEndian.decode value)
    if bits.toNat < 65536 then
      return (some (.sdrSize bits), c)
    else
      .error ⟨done ++ [.read 4], .unsupportedSize (.sizeHighBits bits)⟩
  | .repeats => do
    let (times, c) ← expectByte [] c
    return (some (.repeats times), c)
  | .state => do
    let (value, c) ← expectByte done c
    if TapState.isStableByte value then
      return (some (.state value), c)
    else
      .error ⟨done ++ [.read 1], .unsupportedData opcode value⟩
  | .endIr => readEnd opcode .endIr c
  | .endDr => readEnd opcode .endDr c
  | .sdr | .setSdrMasks | .sdrInc | .sdrTdoB | .sdrTdoC | .sdrTdoE | .sir2 | .comment | .wait =>
    .error ⟨[], .unsupportedCommand opcode.toByte offset⟩

def begun (byte : UInt8) (offset : Nat) (fault : Fault) : Fault :=
  { fault with events := heading byte offset ++ fault.events }

/-- The next command of a program, or nothing at the program's end. -/
def read (size : Nat) (c : Cursor) : Except Fault (Option Command × Cursor) := do
  let (byte, d) ← expectByte [] c
  Except.mapError (begun byte c.position) <|
    match Opcode.ofByte? byte with
    | none => .error ⟨[], .unsupportedCommand byte c.position⟩
    | some opcode => readOperands opcode c.position size d

end Command
end SerialVector
