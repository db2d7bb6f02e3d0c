/-
Reading a command moves forward.

Every command that is read takes at least its opcode.  A reader of whole programs
ends by this.
-/
import SerialVector.Command.Read

namespace SerialVector.Command

/-- A read that succeeds leaves at most `n` bytes. -/
def Leaves {α : Type} (n : Nat) : Except Fault (α × Cursor) → Prop
  | .error _ => True
  | .ok (_, c) => c.remaining ≤ n

theorem leaves_bind {α β : Type} {n : Nat} {r : Except Fault (α × Cursor)}
    {f : α × Cursor → Except Fault (β × Cursor)} (hr : Leaves n r)
    (hf : ∀ a c, c.remaining ≤ n → Leaves n (f (a, c))) : Leaves n (r >>= f) := by
  cases r with
  | error e => trivial
  | ok p => exact hf p.1 p.2 hr

theorem leaves_mapError {α : Type} {n : Nat} {r : Except Fault (α × Cursor)} (g : Fault → Fault)
    (hr : Leaves n r) : Leaves n (r.mapError g) := by
  cases r with
  | error e => trivial
  | ok p => exact hr

theorem leaves_expectByte (done : List Event) (c : Cursor) :
    Leaves (c.remaining - 1) (expectByte done c) := by
  obtain ⟨p, rest⟩ := c
  cases rest with
  | nil => trivial
  | cons b rest => exact Nat.le_refl rest.length

theorem leaves_expectBytes (done : List Event) (count : Nat) (c : Cursor) :
    Leaves c.remaining (expectBytes done count c) := by
  unfold expectBytes Cursor.nextBytes
  cases ht : c.take? count with
  | none => trivial
  | some p =>
    have hc := (Cursor.take?_eq_some_iff.mp ht).1
    show p.2.remaining ≤ c.remaining
    simp only [Cursor.remaining, hc, List.length_append]
    omega

theorem Leaves.mono {α : Type} {m n : Nat} {r : Except Fault (α × Cursor)} (h : Leaves m r)
    (hmn : m ≤ n) : Leaves n r := by
  cases r with
  | error e => trivial
  | ok p => exact Nat.le_trans h hmn

theorem leaves_readOperands (opcode : Opcode) (offset size : Nat) (c : Cursor) :
    Leaves c.remaining (readOperands opcode offset size c) := by
  have hbyte (done : List Event) (c : Cursor) : Leaves c.remaining (expectByte done c) :=
    (leaves_expectByte done c).mono (Nat.sub_le _ _)
  have hend (opcode : Opcode) (command : UInt8 → Command) :
      Leaves c.remaining (readEnd opcode command c) := by
    refine leaves_bind (hbyte _ _) fun value d hd => ?_
    show Leaves _ (if value = 0 then _ else _)
    split
    · exact hd
    · trivial
  have hshift (opcode : Opcode) : Leaves c.remaining (readShift opcode size c) := by
    simp only [readShift]
    split
    · trivial
    · exact leaves_bind (leaves_expectBytes _ _ _) fun _ _ hd => hd
  have hcompare (opcode : Opcode) (parts : Nat) (command : Nat → List UInt8 → Command) :
      Leaves c.remaining (readCompare opcode parts command size c) := by
    simp only [readCompare]
    split
    · trivial
    · exact leaves_bind (leaves_expectBytes _ _ _) fun _ _ hd => hd
  cases opcode with
  | complete => exact Nat.le_refl _
  | tdoMask =>
    simp only [readOperands]
    exact hcompare _ _ _
  | sdrTdo =>
    simp only [readOperands]
    exact hcompare _ _ _
  | sdrB => exact hshift _
  | sdrC => exact hshift _
  | sdrE => exact hshift _
  | endIr => exact hend _ _
  | endDr => exact hend _ _
  | repeats => exact leaves_bind (hbyte _ _) fun _ _ hd => hd
  | runTest => exact leaves_bind (leaves_expectBytes _ _ _) fun _ _ hd => hd
  | sir =>
    refine leaves_bind (hbyte _ _) fun bits d hd => ?_
    exact leaves_bind ((leaves_expectBytes _ _ d).mono hd) fun _ _ he => he
  | sdrSize =>
    refine leaves_bind (leaves_expectBytes _ _ _) fun value d hd => ?_
    show Leaves _ (if _ then _ else _)
    split
    · exact hd
    · trivial
  | state =>
    refine leaves_bind (hbyte _ _) fun value d hd => ?_
    show Leaves _ (if _ then _ else _)
    split
    · exact hd
    · trivial
  | sdr | setSdrMasks | sdrInc | sdrTdoB | sdrTdoC | sdrTdoE | sir2 | comment | wait => trivial

theorem leaves_read (size : Nat) (c : Cursor) : Leaves (c.remaining - 1) (read size c) := by
  refine leaves_bind (leaves_expectByte _ _) fun byte d hd => leaves_mapError _ ?_
  split
  · trivial
  · exact (leaves_readOperands _ _ _ _).mono hd

theorem read_of_rest_nil {size : Nat} {c : Cursor} (h : c.rest = []) :
    read size c = .error ⟨[], .truncated c.position⟩ := by
  obtain ⟨p, rest⟩ := c
  subst h
  rfl

/-- A command that was read takes at least its opcode. -/
theorem remaining_lt_of_read {size : Nat} {c d : Cursor} {command : Option Command}
    (h : read size c = .ok (command, d)) : d.remaining < c.remaining := by
  have hl := leaves_read size c
  rw [h] at hl
  have hpos : 0 < c.remaining := by
    apply List.length_pos_iff.mpr
    intro hnil
    rw [read_of_rest_nil hnil] at h
    simp at h
  have hd : d.remaining ≤ c.remaining - 1 := hl
  omega

end SerialVector.Command
