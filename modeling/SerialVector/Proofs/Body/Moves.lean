/-
The moves of a decoder.

`Decoder.step` is taken apart here once.  What it does to a decoder is then known from
`Moves`, `failed_cases` and `stuck_cases`, without its branches.
-/
import SerialVector.Body.Decoder.Basic
import SerialVector.Proofs.Body.Encoding

namespace SerialVector.Body.Decoder

variable {d next : Decoder} {out : List UInt8} {error : BodyError}

/-! ## Settled lengths -/

theorem readLength?_of_settledLength? {c e : Cursor} {n : Nat}
    (h : settledLength? c = some (n, e)) (more : List UInt8) :
    readLength? ⟨c.position, c.rest ++ more⟩ = some (n, ⟨e.position, e.rest ++ more⟩) := by
  obtain ⟨position, rest⟩ := c
  match rest with
  | [] => cases h
  | b :: rest =>
    by_cases hzero : b = 0
    · subst hzero
      match rest with
      | [] => cases h
      | [_] => cases h
      | hi :: lo :: rest =>
        cases h
        rfl
    · have hread : settledLength? ⟨position, b :: rest⟩ = some (b.toNat, ⟨position + 1, rest⟩) := by
        have hne := readLength?_of_ne_zero hzero position rest
        unfold settledLength?
        split
        · rename_i hrest
          exact absurd (List.cons.inj hrest).1 hzero
        · rename_i hrest
          exact absurd (List.cons.inj hrest).1 hzero
        · exact hne
      rw [hread] at h
      cases h
      exact readLength?_of_ne_zero hzero position (rest ++ more)

/-- A length that is not settled has not begun, or may be the front of a longer one. -/
theorem rest_of_settledLength?_eq_none {c : Cursor} (h : settledLength? c = none) :
    c.rest = [] ∨ ∃ rest, c.rest = 0 :: rest ∧ rest.length < 2 := by
  unfold settledLength? at h
  split at h
  · rename_i hrest
    exact .inr ⟨[], hrest, by decide⟩
  · rename_i b hrest
    exact .inr ⟨[b], hrest, Nat.lt_succ_self 1⟩
  · exact .inl (readLength?_eq_none_iff.mp h)

/-! ## Steps -/

/-- From one decoder to the next, with the bytes given out on the way. -/
inductive Moves : Decoder → List UInt8 → Decoder → Prop where
  | header (position : Nat) (rest : List UInt8) :
    Moves ⟨.header, ⟨position, Body.header :: rest⟩⟩ [] ⟨.chunkLength, ⟨position + 1, rest⟩⟩
  | chunkLength {c e : Cursor} {length : Nat} (hlength : settledLength? c = some (length, e)) :
    Moves ⟨.chunkLength, c⟩ [] (openChunk length e)
  | chunk (start length position : Nat) {missing : Nat} {taken rest : List UInt8}
    (hne : taken ≠ []) (hle : taken.length ≤ missing)
    (hall : rest = [] ∨ taken.length = missing) :
    Moves ⟨.chunk start length missing, ⟨position, taken ++ rest⟩⟩ taken
      ⟨.chunk start length (missing - taken.length), ⟨position + taken.length, rest⟩⟩
  | chunkEnd (start length : Nat) (c : Cursor) :
    Moves ⟨.chunk start length 0, c⟩ [] ⟨.runLength, c⟩
  | runLength {c e : Cursor} {run : Nat} (hrun : settledLength? c = some (run, e)) :
    Moves ⟨.runLength, c⟩ (List.replicate run 0) ⟨.chunkLength, e⟩

theorem moves_of_step (h : d.step = .moved out next) : Moves d out next := by
  obtain ⟨phase, position, rest⟩ := d
  cases phase with
  | header =>
    cases rest with
    | nil => cases h
    | cons b rest =>
      by_cases hb : b = Body.header
      · subst hb
        cases h
        exact .header position rest
      · simp only [step, hb, if_false, reduceCtorEq] at h
  | chunkLength =>
    simp only [step] at h
    split at h
    · cases h
    · rename_i length e hlength
      cases h
      exact .chunkLength hlength
  | chunk start length missing =>
    cases missing with
    | zero =>
      cases h
      exact .chunkEnd start length ⟨position, rest⟩
    | succ missing =>
      cases rest with
      | nil => cases h
      | cons b rest =>
        cases h
        have hsplit := (List.take_append_drop (missing + 1) (b :: rest)).symm
        have hlength : ((b :: rest).take (missing + 1)).length =
            min (missing + 1) (rest.length + 1) := List.length_take
        have hdrop : ((b :: rest).drop (missing + 1)).length = rest.length + 1 - (missing + 1) :=
          List.length_drop
        show Moves ⟨_, ⟨position, b :: rest⟩⟩ ((b :: rest).take (missing + 1))
          ⟨_, ⟨_, (b :: rest).drop (missing + 1)⟩⟩
        generalize (b :: rest).take (missing + 1) = taken at hlength hsplit ⊢
        generalize (b :: rest).drop (missing + 1) = tail at hdrop hsplit ⊢
        rw [hsplit]
        refine .chunk start length position ?_ (by omega) ?_
        · exact List.ne_nil_of_length_pos (by omega)
        · by_cases hall : missing + 1 ≤ rest.length + 1
          · exact .inr (by omega)
          · exact .inl (List.eq_nil_of_length_eq_zero (by omega))
  | runLength =>
    simp only [step] at h
    split at h
    · cases h
    · rename_i run e hrun
      cases h
      exact .runLength hrun

theorem phase_of_moves (h : Moves d out next) : next.phase ≠ .header := by
  cases h <;> exact nofun

/-- Only a header can be wrong. -/
theorem failed_cases (h : d.step = .failed error next) :
    ∃ position b rest, b ≠ Body.header ∧ d = ⟨.header, ⟨position, b :: rest⟩⟩ ∧
      error = .unsupportedHeader b ∧ next = ⟨.header, ⟨position, rest⟩⟩ := by
  obtain ⟨phase, position, rest⟩ := d
  cases phase with
  | header =>
    cases rest with
    | nil => cases h
    | cons b rest =>
      by_cases hb : b = Body.header
      · simp only [step, hb, if_true, reduceCtorEq] at h
      · simp only [step, hb, if_false, Step.failed.injEq] at h
        exact ⟨position, b, rest, hb, rfl, h.1.symm, h.2.symm⟩
  | chunkLength => simp only [step] at h; split at h <;> cases h
  | chunk start length missing =>
    cases missing with
    | zero => cases h
    | succ missing => simp only [step] at h; split at h <;> cases h
  | runLength => simp only [step] at h; split at h <;> cases h

/-- Where a decoder is stuck, it waits for its first byte, for bytes of a chunk or for a
length that is not settled. -/
theorem stuck_cases (h : d.step = .stuck) :
    d.cursor.rest = [] ∧ (d.phase = .header ∨ ∃ start length missing,
        d.phase = .chunk start length (missing + 1)) ∨
      (d.phase = .chunkLength ∨ d.phase = .runLength) ∧
        (d.cursor.rest = [] ∨ ∃ rest, d.cursor.rest = 0 :: rest ∧ rest.length < 2) := by
  obtain ⟨phase, position, rest⟩ := d
  cases phase with
  | header =>
    cases rest with
    | nil => exact .inl ⟨rfl, .inl rfl⟩
    | cons b rest => simp only [step] at h; split at h <;> cases h
  | chunkLength =>
    refine .inr ⟨.inl rfl, rest_of_settledLength?_eq_none ?_⟩
    simp only [step] at h
    split at h
    · assumption
    · cases h
  | chunk start length missing =>
    cases missing with
    | zero => cases h
    | succ missing =>
      cases rest with
      | nil => exact .inl ⟨rfl, .inr ⟨start, length, missing, rfl⟩⟩
      | cons b rest => cases h
  | runLength =>
    refine .inr ⟨.inr rfl, rest_of_settledLength?_eq_none ?_⟩
    simp only [step] at h
    split at h
    · assumption
    · cases h

end SerialVector.Body.Decoder
