/-
Where output goes.

A sink may be bounded.  An append that does not fit leaves what fits and reports
the size the sink has then, whether it comes a byte at a time or as a whole.
-/
import SerialVector.ConversionError

namespace SerialVector

structure Sink where
  /-- The most bytes the sink holds, if there is a most. -/
  capacity : Option Nat
  bytes : Array UInt8
  deriving DecidableEq

namespace Sink

def unbounded : Sink := ⟨none, #[]⟩

def bounded (capacity : Nat) : Sink := ⟨some capacity, #[]⟩

def size (s : Sink) : Nat := s.bytes.size

def toList (s : Sink) : List UInt8 := s.bytes.toList

def fitting (s : Sink) (bytes : List UInt8) : List UInt8 :=
  match s.capacity with
  | none => bytes
  | some capacity => bytes.take (capacity - s.size)

/-- The sink with what fits, and the failure if something did not. -/
def append (s : Sink) (bytes : List UInt8) : Sink × Option ConversionError :=
  let fits := s.fitting bytes
  let grown : Sink := { s with bytes := s.bytes ++ fits }
  (grown, if fits.length = bytes.length then none else some (.sinkFull grown.size))

@[simp] theorem size_unbounded : unbounded.size = 0 := rfl

@[simp] theorem toList_unbounded : unbounded.toList = [] := rfl

@[simp] theorem toList_bounded (capacity : Nat) : (bounded capacity).toList = [] := rfl

theorem length_toList (s : Sink) : s.toList.length = s.size := Array.length_toList

@[simp] theorem toList_append (s : Sink) (bytes : List UInt8) :
    (s.append bytes).1.toList = s.toList ++ s.fitting bytes := by
  simp [append, toList]

@[simp] theorem capacity_append (s : Sink) (bytes : List UInt8) :
    (s.append bytes).1.capacity = s.capacity := rfl

end Sink
end SerialVector
