/-
The size of the playback buffer.

A compare needs as many bytes as the vector size in force has, which is the last one set
before it.  `compareSizes` lists these numbers for the compares of a program, and the size
of the buffer is the greatest of them.  Whatever else a program holds, the bits that it
shifts without a compare in particular, does not count.
-/
import SerialVector.Proofs.Program.Grammar

namespace SerialVector

namespace Command

/-- Whether a player compares what is shifted out. -/
def isCompare : Command → Bool
  | tdoMask _ | sdrTdo .. => true
  | sir .. | runTest _ | repeats _ | sdrSize _ | state _ | endIr _ | endDr _ | raw .. => false

/-- The vector size that the command sets, if it sets one. -/
def sizeSet? : Command → Option Nat
  | sdrSize bits => some bits.toNat
  | tdoMask _ | sir .. | runTest _ | repeats _ | sdrTdo .. | state _ | endIr _ | endDr _ | raw .. =>
    none

/-- The command less what it shifts without a compare. -/
def withoutShift : Command → Command
  | sir _ _ => sir 0 []
  | raw opcode _ => raw opcode []
  | tdoMask mask => tdoMask mask
  | runTest clocks => runTest clocks
  | repeats count => repeats count
  | sdrSize bits => sdrSize bits
  | sdrTdo tdi tdo => sdrTdo tdi tdo
  | state value => state value
  | endIr value => endIr value
  | endDr value => endDr value

theorem nextSize_eq_getD (size : Nat) (c : Command) : c.nextSize size = c.sizeSet?.getD size := by
  cases c <;> rfl

theorem isCompare_withoutShift (c : Command) : c.withoutShift.isCompare = c.isCompare := by
  cases c <;> rfl

theorem nextSize_withoutShift (size : Nat) (c : Command) :
    c.withoutShift.nextSize size = c.nextSize size := by
  cases c <;> rfl

theorem compareBytes_of_compare {size : Nat} {c : Command} (h : c.WellFormed size)
    (hcompare : c.isCompare = true) :
    c.compareBytes = bytesForBits size ∧ bytesForBits size ≤ 128 := by
  cases c with
  | tdoMask mask => exact h
  | sdrTdo tdi tdo => exact ⟨h.1, h.2.2⟩
  | sir | runTest | repeats | sdrSize | state | endIr | endDr | raw => cases hcompare

theorem compareBytes_of_not_compare {c : Command} (h : c.isCompare = false) :
    c.compareBytes = 0 := by
  cases c with
  | tdoMask mask => cases h
  | sdrTdo tdi tdo => cases h
  | sir | runTest | repeats | sdrSize | state | endIr | endDr | raw => rfl

end Command

namespace Program

/-- The last vector size that some commands set, or 0. -/
def lastSize (commands : List Command) : Nat :=
  ((commands.filterMap Command.sizeSet?).getLast?).getD 0

/-- One of the commands compares, and this is the vector size that was set last before it. -/
def ComparesUnder (commands : List Command) (bits : Nat) : Prop :=
  ∃ front c back, commands = front ++ c :: back ∧ c.isCompare = true ∧ bits = lastSize front

/-- How many bytes each compare of some commands needs, in order. -/
def compareSizes (size : Nat) : List Command → List Nat
  | [] => []
  | c :: commands =>
    if c.isCompare then bytesForBits size :: compareSizes size commands
    else compareSizes (c.nextSize size) commands

theorem sizeAfter_eq_getD (size : Nat) (commands : List Command) :
    sizeAfter size commands = ((commands.filterMap Command.sizeSet?).getLast?).getD size := by
  induction commands generalizing size with
  | nil => rfl
  | cons c commands ih =>
    show sizeAfter (c.nextSize size) commands = _
    rw [ih, Command.nextSize_eq_getD]
    cases hset : c.sizeSet? with
    | none => rw [List.filterMap_cons_none hset, Option.getD_none]
    | some bits => rw [List.filterMap_cons_some hset, List.getLast?_cons, Option.getD_some,
        Option.getD_some]

theorem sizeAfter_eq_lastSize (commands : List Command) :
    sizeAfter 0 commands = lastSize commands :=
  sizeAfter_eq_getD 0 commands

theorem nextSize_of_compare {c : Command} (h : c.isCompare = true) (size : Nat) :
    c.nextSize size = size := by
  cases c with
  | sdrSize bits => cases h
  | tdoMask | sir | runTest | repeats | sdrTdo | state | endIr | endDr | raw => rfl

theorem mem_compareSizes_iff {size bytes : Nat} {commands : List Command} :
    bytes ∈ compareSizes size commands ↔
      ∃ front c back, commands = front ++ c :: back ∧ c.isCompare = true ∧
        bytes = bytesForBits (sizeAfter size front) := by
  induction commands generalizing size with
  | nil =>
    constructor
    · exact fun h => absurd h List.not_mem_nil
    · rintro ⟨front, c, back, hnil, -⟩
      exact absurd hnil (by simp)
  | cons d commands ih =>
    have hbehind : (∃ front c back, d :: commands = (d :: front) ++ c :: back ∧
        c.isCompare = true ∧ bytes = bytesForBits (sizeAfter size (d :: front))) ↔
          bytes ∈ compareSizes (d.nextSize size) commands := by
      rw [ih]
      simp only [List.cons_append, List.cons.injEq, true_and]
      rfl
    have hsplit : (∃ front c back, d :: commands = front ++ c :: back ∧ c.isCompare = true ∧
        bytes = bytesForBits (sizeAfter size front)) ↔
          d.isCompare = true ∧ bytes = bytesForBits size ∨
            bytes ∈ compareSizes (d.nextSize size) commands := by
      rw [← hbehind]
      constructor
      · rintro ⟨front, c, back, hcommands, hcompare, hbytes⟩
        cases front with
        | nil =>
          cases hcommands
          exact .inl ⟨hcompare, hbytes⟩
        | cons e front =>
          cases hcommands
          exact .inr ⟨front, c, back, rfl, hcompare, hbytes⟩
      · rintro (⟨hcompare, hbytes⟩ | ⟨front, c, back, hcommands, hcompare, hbytes⟩)
        · exact ⟨[], d, commands, rfl, hcompare, hbytes⟩
        · exact ⟨d :: front, c, back, hcommands, hcompare, hbytes⟩
    rw [hsplit]
    cases hcompare : d.isCompare with
    | true =>
      rw [nextSize_of_compare hcompare, compareSizes, if_pos hcompare, List.mem_cons]
      simp
    | false =>
      rw [compareSizes, if_neg (by simp [hcompare])]
      simp

theorem mem_compareSizes_iff_comparesUnder {bytes : Nat} {commands : List Command} :
    bytes ∈ compareSizes 0 commands ↔
      ∃ bits, ComparesUnder commands bits ∧ bytes = bytesForBits bits := by
  rw [mem_compareSizes_iff]
  simp only [sizeAfter_eq_lastSize]
  constructor
  · rintro ⟨front, c, back, hcommands, hcompare, hbytes⟩
    exact ⟨_, ⟨front, c, back, hcommands, hcompare, rfl⟩, hbytes⟩
  · rintro ⟨bits, ⟨front, c, back, hcommands, hcompare, rfl⟩, hbytes⟩
    exact ⟨front, c, back, hcommands, hcompare, hbytes⟩

theorem not_compare_of_compareSizes_nil {size : Nat} {commands : List Command}
    (h : compareSizes size commands = []) : ∀ c ∈ commands, c.isCompare = false := by
  intro c hc
  obtain ⟨front, back, hcommands⟩ := List.append_of_mem hc
  cases hcompare : c.isCompare with
  | false => rfl
  | true =>
    have hmem : bytesForBits (sizeAfter size front) ∈ compareSizes size commands :=
      mem_compareSizes_iff.mpr ⟨front, c, back, hcommands, hcompare, rfl⟩
    rw [h] at hmem
    exact absurd hmem List.not_mem_nil

theorem compareSizes_withoutShift (size : Nat) (commands : List Command) :
    compareSizes size (commands.map Command.withoutShift) = compareSizes size commands := by
  induction commands generalizing size with
  | nil => rfl
  | cons c commands ih =>
    rw [List.map_cons, compareSizes, compareSizes, Command.isCompare_withoutShift,
      Command.nextSize_withoutShift, ih, ih]

theorem compareSizes_le {size : Nat} {commands : List Command} (h : WellFormed size commands) :
    ∀ bytes ∈ compareSizes size commands, bytes ≤ 128 := by
  induction commands generalizing size with
  | nil => exact fun bytes hbytes => absurd hbytes List.not_mem_nil
  | cons c commands ih =>
    have hrest := ih h.2
    cases hcompare : c.isCompare with
    | true =>
      rw [nextSize_of_compare hcompare] at hrest
      rw [compareSizes, if_pos hcompare]
      exact List.forall_mem_cons.mpr ⟨(Command.compareBytes_of_compare h.1 hcompare).2, hrest⟩
    | false =>
      rw [compareSizes, if_neg (by simp [hcompare])]
      exact hrest

theorem foldl_compareBytes {size : Nat} {commands : List Command} (h : WellFormed size commands)
    (most : Nat) :
    commands.foldl (fun size c => max size c.compareBytes) most =
      (compareSizes size commands).foldl max most := by
  induction commands generalizing size most with
  | nil => rfl
  | cons c commands ih =>
    rw [List.foldl_cons, ih h.2]
    cases hcompare : c.isCompare with
    | true =>
      rw [nextSize_of_compare hcompare, compareSizes, if_pos hcompare, List.foldl_cons,
        (Command.compareBytes_of_compare h.1 hcompare).1]
    | false =>
      rw [compareSizes, if_neg (by simp [hcompare]), Command.compareBytes_of_not_compare hcompare,
        Nat.max_zero]

section BufferSize

variable {commands : List Command} (h : WellFormed 0 commands)
include h

theorem bufferSize_eq_max? : bufferSize commands = ((compareSizes 0 commands).max?).getD 0 := by
  rw [bufferSize, foldl_compareBytes h, List.foldl_max]
  exact Nat.zero_max _

theorem compareSize_le_bufferSize {bytes : Nat} (hbytes : bytes ∈ compareSizes 0 commands) :
    bytes ≤ bufferSize commands := by
  rw [bufferSize_eq_max? h]
  cases hmax : (compareSizes 0 commands).max? with
  | none =>
    rw [List.max?_eq_none_iff.mp hmax] at hbytes
    exact absurd hbytes List.not_mem_nil
  | some most => exact (List.max?_eq_some_iff.mp hmax).2 bytes hbytes

/-- The size of the buffer is that of some compare, unless there is none. -/
theorem bufferSize_cases :
    bufferSize commands ∈ compareSizes 0 commands ∨
      compareSizes 0 commands = [] ∧ bufferSize commands = 0 := by
  rw [bufferSize_eq_max? h]
  cases hmax : (compareSizes 0 commands).max? with
  | none => exact .inr ⟨List.max?_eq_none_iff.mp hmax, rfl⟩
  | some most => exact .inl (List.max?_eq_some_iff.mp hmax).1

theorem bufferSize_le : bufferSize commands ≤ 128 := by
  rcases bufferSize_cases h with hmem | ⟨-, hzero⟩
  · exact compareSizes_le h _ hmem
  · rw [hzero]
    exact Nat.zero_le 128

theorem bufferSize_le_of_subset {others : List Command} (hothers : WellFormed 0 others)
    (hsubset : ∀ bytes ∈ compareSizes 0 others, bytes ∈ compareSizes 0 commands) :
    bufferSize others ≤ bufferSize commands := by
  rcases bufferSize_cases hothers with hmem | ⟨-, hzero⟩
  · exact compareSize_le_bufferSize h (hsubset _ hmem)
  · rw [hzero]
    exact Nat.zero_le _

/-- Neither the order of the compares nor how often a size comes matters. -/
theorem bufferSize_of_same_sizes {others : List Command} (hothers : WellFormed 0 others)
    (hsame : ∀ bytes, bytes ∈ compareSizes 0 others ↔ bytes ∈ compareSizes 0 commands) :
    bufferSize others = bufferSize commands := by
  apply Nat.le_antisymm
  · exact bufferSize_le_of_subset h hothers fun bytes => (hsame bytes).mp
  · exact bufferSize_le_of_subset hothers h fun bytes => (hsame bytes).mpr

end BufferSize

end Program

end SerialVector
