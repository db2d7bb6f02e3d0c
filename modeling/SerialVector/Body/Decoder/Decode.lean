/-
Asking a decoder for bytes.

While pieces may follow, a decoder moves until it is stuck.  Once the body has
ended, a zero that it was stuck at is a length of its own, and it goes on behind
it.  Both come to rest because every move and every zero taken brings a decoder
nearer to the end of what it holds.
-/
import SerialVector.Body.Decoder.Basic

namespace SerialVector.Body

/-- What asking a decoder for bytes brings: an error, nothing yet, or bytes. -/
abbrev Answer := Except BodyError (Option (List UInt8))

namespace Decoder

/-- Moves a decoder until it is stuck, behind the bytes given out so far. -/
def drain (out : Array UInt8) (d : Decoder) : Decoder × Except BodyError (Array UInt8) :=
  match _h : d.step with
  | .stuck => (d, .ok out)
  | .failed error next => (next, .error error)
  | .moved bytes next => drain (out ++ bytes) next
termination_by d.potential
decreasing_by exact potential_lt_of_step _h

def decode (d : Decoder) : Decoder × Answer :=
  let (next, result) := d.drain #[]
  (next, result.map fun out => if out.isEmpty then none else some out.toList)

/-- The decoder with a zero taken as a length of its own, which it is when nothing
follows that could make it the first byte of a longer field. -/
def takeZero? (d : Decoder) : Option Decoder :=
  match d.phase, d.cursor.rest with
  | .chunkLength, 0 :: rest => some (openChunk 0 ⟨d.cursor.position + 1, rest⟩)
  | .runLength, 0 :: rest => some ⟨.chunkLength, ⟨d.cursor.position + 1, rest⟩⟩
  | _, _ => none

/-- What a body that ends here comes to. -/
def ending (d : Decoder) : Answer :=
  match d.phase with
  | .header => .error .missingHeader
  | .chunk start length _ => .error (.truncatedChunk start length)
  | .chunkLength =>
    if d.cursor.rest.isEmpty then .ok none else .error (.truncatedLength d.cursor.position)
  | .runLength => .error (.truncatedLength d.cursor.position)

theorem drain_of_ok {out out' : Array UInt8} {d next : Decoder}
    (h : d.drain out = (next, .ok out')) :
    next = d ∧ out' = out ∨ next.potential < d.potential ∧ next.buffered ≤ d.buffered := by
  fun_induction drain out d with
  | case1 out d hs =>
    simp only [Prod.mk.injEq, Except.ok.injEq] at h
    exact .inl ⟨h.1.symm, h.2.symm⟩
  | case2 out d error next' hs => simp at h
  | case3 out d bytes next' hs ih =>
    have hp := potential_lt_of_step hs
    have hb := buffered_le_of_step hs
    rcases ih h with ⟨rfl, _⟩ | ⟨hlt, hle⟩
    · exact .inr ⟨hp, hb⟩
    · exact .inr ⟨Nat.lt_trans hlt hp, Nat.le_trans hle hb⟩

/-- Bytes are given out only for bytes that were understood. -/
theorem potential_lt_of_decode {d next : Decoder} {bytes : List UInt8}
    (h : d.decode = (next, .ok (some bytes))) : next.potential < d.potential := by
  unfold decode at h
  split at h
  rename_i next' result hd
  cases result with
  | error e => simp [Except.map] at h
  | ok out =>
    simp only [Except.map, Prod.mk.injEq, Except.ok.injEq] at h
    obtain ⟨rfl, hout⟩ := h
    rcases drain_of_ok hd with ⟨_, rfl⟩ | ⟨hlt, _⟩
    · simp at hout
    · exact hlt

theorem buffered_le_of_decode {d next : Decoder} {item : Option (List UInt8)}
    (h : d.decode = (next, .ok item)) : next.buffered ≤ d.buffered := by
  unfold decode at h
  split at h
  rename_i next' result hd
  cases result with
  | error e => simp [Except.map] at h
  | ok out =>
    simp only [Except.map, Prod.mk.injEq, Except.ok.injEq] at h
    obtain ⟨rfl, _⟩ := h
    rcases drain_of_ok hd with ⟨rfl, _⟩ | ⟨_, hle⟩
    · exact Nat.le_refl _
    · exact hle

theorem buffered_lt_of_takeZero? {d next : Decoder} (h : d.takeZero? = some next) :
    next.buffered < d.buffered := by
  unfold takeZero? at h
  split at h
  · rename_i hd
    simp only [Option.some.injEq] at h
    rw [← h]
    simp [buffered, openChunk, Cursor.remaining, hd]
  · rename_i hd
    simp only [Option.some.injEq] at h
    rw [← h]
    simp [buffered, Cursor.remaining, hd]
  · simp at h

/-- Gives out what is certain now that no piece follows. -/
def decodeEnd (d : Decoder) : Decoder × Answer :=
  match _h : d.decode with
  | (next, .ok none) =>
    match _hz : next.takeZero? with
    | some closed => closed.decodeEnd
    | none => (next, next.ending)
  | (next, .ok (some bytes)) => (next, .ok (some bytes))
  | (next, .error error) => (next, .error error)
termination_by d.buffered
decreasing_by exact Nat.lt_of_lt_of_le (buffered_lt_of_takeZero? _hz) (buffered_le_of_decode _h)

theorem potential_lt_of_takeZero? {d next : Decoder} (h : d.takeZero? = some next) :
    next.potential < d.potential := by
  have hb := buffered_lt_of_takeZero? h
  unfold potential
  split <;> split <;> omega

theorem potential_le_of_decode {d next : Decoder} {item : Option (List UInt8)}
    (h : d.decode = (next, .ok item)) : next.potential ≤ d.potential := by
  unfold decode at h
  split at h
  rename_i next' result hd
  cases result with
  | error e => simp [Except.map] at h
  | ok out =>
    simp only [Except.map, Prod.mk.injEq, Except.ok.injEq] at h
    obtain ⟨rfl, _⟩ := h
    rcases drain_of_ok hd with ⟨rfl, _⟩ | ⟨hlt, _⟩
    · exact Nat.le_refl _
    · exact Nat.le_of_lt hlt

theorem potential_lt_of_decodeEnd {d next : Decoder} {bytes : List UInt8}
    (h : d.decodeEnd = (next, .ok (some bytes))) : next.potential < d.potential := by
  fun_induction decodeEnd d with
  | case1 d next' hd closed hz ih =>
    exact Nat.lt_of_lt_of_le (Nat.lt_trans (ih h) (potential_lt_of_takeZero? hz))
      (potential_le_of_decode hd)
  | case2 d next' hd hz =>
    simp only [Prod.mk.injEq] at h
    have he := h.2
    unfold ending at he
    repeat' split at he
    all_goals simp at he
  | case3 d next' bytes' hd =>
    simp only [Prod.mk.injEq, Except.ok.injEq, Option.some.injEq] at h
    obtain ⟨rfl, rfl⟩ := h
    exact potential_lt_of_decode hd
  | case4 d next' error hd => simp at h

end Decoder
end SerialVector.Body
