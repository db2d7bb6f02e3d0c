/-
The commands of a serial vector program.

A command holds its operands as a player means them and not as bytes in a row: a
compare holds what is shifted in apart from what is expected.  How many bytes an
operand has is decided by the vector size in force, which an earlier command set,
so a command alone does not say whether it is well formed.
-/
import SerialVector.BigEndian
import SerialVector.Bits
import SerialVector.Transcript

namespace SerialVector

inductive Command where
  | tdoMask (mask : List UInt8)
  | sir (bits : UInt8) (value : List UInt8)
  | runTest (clocks : UInt32)
  | repeats (count : UInt8)
  | sdrSize (bits : UInt32)
  | sdrTdo (tdi tdo : List UInt8)
  | state (value : UInt8)
  | endIr (value : UInt8)
  | endDr (value : UInt8)
  /-- A command byte with an operand that is shifted and not compared. -/
  | raw (opcode : UInt8) (operand : List UInt8)
  deriving DecidableEq

namespace Command

/-- The largest operand of a compare, in bytes.  A player holds that much. -/
def maxCompare : Nat := 128

/-- The largest operand that is shifted without a compare, in bytes. -/
def maxShift : Nat := 256

def opcodeByte : Command → UInt8
  | tdoMask _ => Opcode.tdoMask.toByte
  | sir .. => Opcode.sir.toByte
  | runTest _ => Opcode.runTest.toByte
  | repeats _ => Opcode.repeats.toByte
  | sdrSize _ => Opcode.sdrSize.toByte
  | sdrTdo .. => Opcode.sdrTdo.toByte
  | state _ => Opcode.state.toByte
  | endIr _ => Opcode.endIr.toByte
  | endDr _ => Opcode.endDr.toByte
  | raw opcode _ => opcode

def operandBytes : Command → List UInt8
  | tdoMask mask => mask
  | sir bits value => bits :: value
  | runTest clocks => BigEndian.encode 4 clocks.toNat
  | repeats count => [count]
  | sdrSize bits => BigEndian.encode 4 bits.toNat
  | sdrTdo tdi tdo => tdi ++ tdo
  | state value => [value]
  | endIr value => [value]
  | endDr value => [value]
  | raw _ operand => operand

def encode (c : Command) : List UInt8 := c.opcodeByte :: c.operandBytes

def nextSize (size : Nat) : Command → Nat
  | sdrSize bits => bits.toNat
  | _ => size

/-- How many bytes a player holds for the compare that the command asks for. -/
def compareBytes : Command → Nat
  | tdoMask mask => mask.length
  | sdrTdo tdi _ => tdi.length
  | _ => 0

/-- An operand in the order it is played in.  A program has the byte that is
shifted first at the end. -/
def playOrder (swap : Bool) (operand : List UInt8) : List UInt8 :=
  if swap then operand.reverse else operand

@[simp] theorem length_playOrder (swap : Bool) (operand : List UInt8) :
    (playOrder swap operand).length = operand.length := by
  cases swap <;> simp [playOrder]

@[simp] theorem playOrder_playOrder (swap : Bool) (operand : List UInt8) :
    playOrder swap (playOrder swap operand) = operand := by
  cases swap <;> simp [playOrder]

/-- How a command begins: its opcode is read, and noted if it is assigned. -/
def heading (byte : UInt8) (offset : Nat) : List Event :=
  .read 1 :: ((Opcode.ofByte? byte).map fun opcode => .note (.command opcode offset)).toList

/-- What is done with the operands of a command once its opcode was read.  Retry
counts and the states to end shifts in mean nothing to a player and are read only. -/
def operandEvents (swap : Bool) : Command → List Event
  | repeats _ | endIr _ | endDr _ => [.read 1]
  | tdoMask mask =>
    [.write [Opcode.tdoMask.toByte], .read mask.length, .write (playOrder swap mask)]
  | sir bits value =>
    [.write [Opcode.sir.toByte], .read 1, .write [bits], .read value.length,
      .write (playOrder swap value)]
  | runTest clocks =>
    [.write [Opcode.runTest.toByte], .read 4, .write (BigEndian.encode 4 clocks.toNat)]
  | sdrSize bits =>
    [.write [Opcode.sdrSize.toByte], .read 4, .write (BigEndian.encode 2 bits.toNat),
      .note (.sizeSet bits.toNat)]
  | sdrTdo tdi tdo =>
    [.write [Opcode.sdrTdo.toByte], .read (tdi ++ tdo).length, .write (playOrder swap (tdi ++ tdo))]
  | state value => [.write [Opcode.state.toByte], .read 1, .write [value]]
  | raw opcode operand =>
    [.write [opcode], .read operand.length, .write (playOrder swap operand)]

def events (swap : Bool) (offset : Nat) (c : Command) : List Event :=
  heading c.opcodeByte offset ++ c.operandEvents swap

end Command
end SerialVector
