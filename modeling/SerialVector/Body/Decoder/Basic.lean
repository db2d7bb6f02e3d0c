/-
Reading a body that arrives in pieces.

A decoder gives out bytes as soon as they are certain and keeps back only what may
yet turn out to be part of a longer length field, which is two bytes at most.  What
it keeps back is settled when the body ends.  Its cursor stands behind the last
byte it has understood, with the bytes not yet understood ahead of it.
-/
import SerialVector.Body.Contents

namespace SerialVector.Body

/-- What a decoder expects next. -/
inductive Phase where
  | header
  | chunkLength
  /-- `missing` bytes of a chunk of `length` bytes that begins at `start`. -/
  | chunk (start length missing : Nat)
  | runLength
  deriving DecidableEq

structure Decoder where
  phase : Phase
  cursor : Cursor
  deriving DecidableEq

namespace Decoder

def start : Decoder := ⟨.header, Cursor.start []⟩

def buffered (d : Decoder) : Nat := d.cursor.remaining

def feed (d : Decoder) (piece : List UInt8) : Decoder :=
  { d with cursor := { d.cursor with rest := d.cursor.rest ++ piece } }

/-- The length at a cursor, once it is sure how far its field reaches. -/
def settledLength? (c : Cursor) : Option (Nat × Cursor) :=
  match c.rest with
  | [0] | [0, _] => none
  | _ => readLength? c

inductive Step where
  | stuck
  | failed (error : BodyError) (next : Decoder)
  | moved (out : List UInt8) (next : Decoder)

/-- A chunk of `length` bytes from a cursor on. -/
def openChunk (length : Nat) (c : Cursor) : Decoder := ⟨.chunk c.position length length, c⟩

def step (d : Decoder) : Step :=
  match d.phase with
  | .header =>
    match d.cursor.rest with
    | [] => .stuck
    | b :: rest =>
      if b = header then .moved [] ⟨.chunkLength, ⟨d.cursor.position + 1, rest⟩⟩
      else .failed (.unsupportedHeader b) { d with cursor := { d.cursor with rest := rest } }
  | .chunkLength =>
    match settledLength? d.cursor with
    | none => .stuck
    | some (length, c) => .moved [] (openChunk length c)
  | .chunk _ _ 0 => .moved [] { d with phase := .runLength }
  | .chunk start length (missing + 1) =>
    match d.cursor.rest with
    | [] => .stuck
    | rest =>
      let taken := rest.take (missing + 1)
      .moved taken
        ⟨.chunk start length (missing + 1 - taken.length),
          ⟨d.cursor.position + taken.length, rest.drop (missing + 1)⟩⟩
  | .runLength =>
    match settledLength? d.cursor with
    | none => .stuck
    | some (length, c) => .moved (List.replicate length 0) ⟨.chunkLength, c⟩

/-- A bound on the moves left.  Every move takes bytes, but for the one that leaves
a full chunk. -/
def potential (d : Decoder) : Nat :=
  2 * d.buffered + match d.phase with
    | .chunk .. => 1
    | _ => 0

theorem remaining_lt_of_settledLength? {c e : Cursor} {n : Nat}
    (h : settledLength? c = some (n, e)) : e.remaining < c.remaining := by
  unfold settledLength? at h
  split at h
  · simp at h
  · simp at h
  · exact remaining_lt_of_readLength? h

theorem potential_lt_of_step {d next : Decoder} {out : List UInt8}
    (h : d.step = .moved out next) : next.potential < d.potential := by
  obtain ⟨phase, position, rest⟩ := d
  cases phase with
  | header =>
    cases rest with
    | nil => simp [step] at h
    | cons b rest =>
      by_cases hb : b = Body.header
      · simp only [step, hb, if_true, Step.moved.injEq] at h
        rw [← h.2]
        simp only [potential, buffered, Cursor.remaining, List.length_cons]
        omega
      · simp [step, hb] at h
  | chunkLength =>
    simp only [step] at h
    split at h
    · simp at h
    · rename_i length c hc
      have hlt := remaining_lt_of_settledLength? hc
      simp only [Step.moved.injEq] at h
      rw [← h.2]
      simp only [potential, buffered, openChunk]
      omega
  | chunk start length missing =>
    cases missing with
    | zero =>
      simp only [step, Step.moved.injEq] at h
      rw [← h.2]
      simp only [potential, buffered]
      omega
    | succ missing =>
      cases rest with
      | nil => simp [step] at h
      | cons b rest =>
        simp only [step, Step.moved.injEq] at h
        rw [← h.2]
        simp only [potential, buffered, Cursor.remaining, List.length_drop, List.length_cons]
        omega
  | runLength =>
    simp only [step] at h
    split at h
    · simp at h
    · rename_i length c hc
      have hlt := remaining_lt_of_settledLength? hc
      simp only [Step.moved.injEq] at h
      rw [← h.2]
      simp only [potential, buffered]
      omega

theorem buffered_le_of_step {d next : Decoder} {out : List UInt8}
    (h : d.step = .moved out next) : next.buffered ≤ d.buffered := by
  have hp := potential_lt_of_step h
  unfold potential at hp
  split at hp <;> split at hp <;> omega

end Decoder
end SerialVector.Body
