/-
The opcodes of a serial vector program.

`Opcode` lists every assigned opcode, those included that no conversion handles,
because a program that uses one is to be told its name.  The byte of an opcode is
the primary table.  `ofByte?` searches it, so that the two directions cannot
disagree.
-/
namespace SerialVector

inductive Opcode where
  | complete
  | tdoMask
  | sir
  | sdr
  | runTest
  | repeats
  | sdrSize
  | sdrTdo
  | setSdrMasks
  | sdrInc
  | sdrB
  | sdrC
  | sdrE
  | sdrTdoB
  | sdrTdoC
  | sdrTdoE
  | state
  | endIr
  | endDr
  | sir2
  | comment
  | wait
  deriving DecidableEq

namespace Opcode

def all : List Opcode :=
  [complete, tdoMask, sir, sdr, runTest, repeats, sdrSize, sdrTdo, setSdrMasks, sdrInc, sdrB, sdrC,
    sdrE, sdrTdoB, sdrTdoC, sdrTdoE, state, endIr, endDr, sir2, comment, wait]

def toByte : Opcode → UInt8
  | complete => 0x00
  | tdoMask => 0x01
  | sir => 0x02
  | sdr => 0x03
  | runTest => 0x04
  | repeats => 0x07
  | sdrSize => 0x08
  | sdrTdo => 0x09
  | setSdrMasks => 0x0A
  | sdrInc => 0x0B
  | sdrB => 0x0C
  | sdrC => 0x0D
  | sdrE => 0x0E
  | sdrTdoB => 0x0F
  | sdrTdoC => 0x10
  | sdrTdoE => 0x11
  | state => 0x12
  | endIr => 0x13
  | endDr => 0x14
  | sir2 => 0x15
  | comment => 0x16
  | wait => 0x17

/-- The opcode that a byte stands for.  Bytes 5, 6 and those above 0x17 stand for
none. -/
def ofByte? (byte : UInt8) : Option Opcode :=
  all.find? fun o => o.toByte == byte

def name : Opcode → String
  | complete => "XCOMPLETE"
  | tdoMask => "XTDOMASK"
  | sir => "XSIR"
  | sdr => "XSDR"
  | runTest => "XRUNTEST"
  | repeats => "XREPEAT"
  | sdrSize => "XSDRSIZE"
  | sdrTdo => "XSDRTDO"
  | setSdrMasks => "XSETSDRMASKS"
  | sdrInc => "XSDRINC"
  | sdrB => "XSDRB"
  | sdrC => "XSDRC"
  | sdrE => "XSDRE"
  | sdrTdoB => "XSDRTDOB"
  | sdrTdoC => "XSDRTDOC"
  | sdrTdoE => "XSDRTDOE"
  | state => "XSTATE"
  | endIr => "XENDIR"
  | endDr => "XENDDR"
  | sir2 => "XSIR2"
  | comment => "XCOMMENT"
  | wait => "XWAIT"

/-- Whether a conversion handles the command.  The others need a player that
computes vectors itself or masks them, which a forward player does not. -/
def isSupported : Opcode → Bool
  | complete | tdoMask | sir | runTest | repeats | sdrSize | sdrTdo | sdrB | sdrC | sdrE | state
  | endIr | endDr => true
  | sdr | setSdrMasks | sdrInc | sdrTdoB | sdrTdoC | sdrTdoE | sir2 | comment | wait => false

theorem ofByte?_toByte (o : Opcode) : ofByte? o.toByte = some o := by
  cases o <;> rfl

theorem toByte_of_ofByte? {byte : UInt8} {o : Opcode} (h : ofByte? byte = some o) :
    o.toByte = byte := by
  simpa using List.find?_some h

end Opcode
end SerialVector
