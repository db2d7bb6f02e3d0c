/-
The states of a test access port.
-/
namespace SerialVector

/-- The sixteen states, in the order of their numbers. -/
inductive TapState where
  | testLogicReset
  | runTestIdle
  | selectDrScan
  | captureDr
  | shiftDr
  | exit1Dr
  | pauseDr
  | exit2Dr
  | updateDr
  | selectIrScan
  | captureIr
  | shiftIr
  | exit1Ir
  | pauseIr
  | exit2Ir
  | updateIr
  deriving DecidableEq

namespace TapState

def all : List TapState :=
  [testLogicReset, runTestIdle, selectDrScan, captureDr, shiftDr, exit1Dr, pauseDr, exit2Dr,
    updateDr, selectIrScan, captureIr, shiftIr, exit1Ir, pauseIr, exit2Ir, updateIr]

def toByte : TapState → UInt8
  | testLogicReset => 0
  | runTestIdle => 1
  | selectDrScan => 2
  | captureDr => 3
  | shiftDr => 4
  | exit1Dr => 5
  | pauseDr => 6
  | exit2Dr => 7
  | updateDr => 8
  | selectIrScan => 9
  | captureIr => 10
  | shiftIr => 11
  | exit1Ir => 12
  | pauseIr => 13
  | exit2Ir => 14
  | updateIr => 15

def ofByte? (byte : UInt8) : Option TapState :=
  all.find? fun s => s.toByte == byte

def name : TapState → String
  | testLogicReset => "TestLogicReset"
  | runTestIdle => "RunTestIdle"
  | selectDrScan => "SelectDrScan"
  | captureDr => "CaptureDr"
  | shiftDr => "ShiftDr"
  | exit1Dr => "Exit1Dr"
  | pauseDr => "PauseDr"
  | exit2Dr => "Exit2Dr"
  | updateDr => "UpdateDr"
  | selectIrScan => "SelectIrScan"
  | captureIr => "CaptureIr"
  | shiftIr => "ShiftIr"
  | exit1Ir => "Exit1Ir"
  | pauseIr => "PauseIr"
  | exit2Ir => "Exit2Ir"
  | updateIr => "UpdateIr"

/-- The states that a program may ask a player to go to and stay in. -/
def isStable : TapState → Bool
  | testLogicReset | runTestIdle => true
  | _ => false

theorem toByte_of_ofByte? {byte : UInt8} {s : TapState} (h : ofByte? byte = some s) :
    s.toByte = byte := by
  simpa using List.find?_some h

def isStableByte (byte : UInt8) : Bool :=
  (ofByte? byte).any isStable

theorem isStableByte_iff {byte : UInt8} : isStableByte byte = true ↔ byte = 0 ∨ byte = 1 := by
  constructor
  · intro h
    obtain ⟨s, hs, hst⟩ := (Option.any_eq_true ..).mp h
    have hb := toByte_of_ofByte? hs
    cases s <;> simp_all [isStable, toByte]
  · rintro (rfl | rfl) <;> rfl

end TapState
end SerialVector
