/-
A body delivered in pieces and expanded as it arrives.
-/
import SerialVector.Body.Decoder.Decode

namespace SerialVector.Body

structure Delivery where
  bytes : Array UInt8
  error : Option BodyError
  deriving DecidableEq

namespace Delivery

/-- Asks a decoder until it has nothing more or fails, behind the bytes given out so
far.  This ends because a decoder gives out bytes only as it moves on. -/
def exhaust (ask : Decoder → Decoder × Answer)
    (moves : ∀ {d next bytes}, ask d = (next, .ok (some bytes)) → next.potential < d.potential)
    (out : Array UInt8) (d : Decoder) : Decoder × Delivery :=
  match _h : ask d with
  | (next, .ok none) => (next, ⟨out, none⟩)
  | (next, .ok (some bytes)) => exhaust ask moves (out ++ bytes) next
  | (next, .error error) => (next, ⟨out, some error⟩)
termination_by d.potential
decreasing_by exact moves _h

/-- The delivery of further pieces and of the end behind them. -/
def proceed (out : Array UInt8) (d : Decoder) : List (List UInt8) → Delivery
  | [] => (exhaust Decoder.decodeEnd Decoder.potential_lt_of_decodeEnd out d).2
  | piece :: pieces =>
    match exhaust Decoder.decode Decoder.potential_lt_of_decode out (d.feed piece) with
    | (next, ⟨out, none⟩) => proceed out next pieces
    | (_, delivery) => delivery

end Delivery

def deliver (pieces : List (List UInt8)) : Delivery := Delivery.proceed #[] .start pieces

/-- Cuts bytes into pieces of a given size, behind the pieces cut so far.  A size of
zero would cut nothing off and counts as one. -/
def cutFrom (pieces : List (List UInt8)) (size : Nat) (bytes : List UInt8) : List (List UInt8) :=
  match bytes with
  | [] => pieces.reverse
  | b :: rest => cutFrom ((b :: rest.take (size - 1)) :: pieces) size (rest.drop (size - 1))
termination_by bytes.length
decreasing_by
  simp only [List.length_drop, List.length_cons]
  omega

def cut (size : Nat) (bytes : List UInt8) : List (List UInt8) := cutFrom [] size bytes

theorem flatten_cutFrom (pieces : List (List UInt8)) (size : Nat) (bytes : List UInt8) :
    (cutFrom pieces size bytes).flatten = pieces.reverse.flatten ++ bytes := by
  fun_induction cutFrom pieces size bytes with
  | case1 pieces => simp
  | case2 pieces b rest ih => simp [ih]

theorem flatten_cut (size : Nat) (bytes : List UInt8) : (cut size bytes).flatten = bytes := by
  simp [cut, flatten_cutFrom]

end SerialVector.Body
