/-
Zeros in a row.

What is written of a command begins with its opcode, which is not zero, and has at most
256 bytes behind it.  Zeros of one command therefore end before the next, except that the
mark of the end is a zero itself and may add one to the zeros of the last command.
-/
import SerialVector.Proofs.Conversion

namespace SerialVector

/-- At most `most` zeros stand in a row anywhere. -/
def ZerosAtMost (most : Nat) (data : List UInt8) : Prop :=
  ∀ front count back, data = front ++ List.replicate count 0 ++ back → count ≤ most

theorem count_le_leadingZeros {count : Nat} {data back : List UInt8}
    (h : data = List.replicate count 0 ++ back) : count ≤ Segment.leadingZeros data := by
  have hzero : ∀ b ∈ List.replicate count (0 : UInt8), (b == 0) = true := by
    intro b hb
    rw [List.eq_of_mem_replicate hb]
    rfl
  rw [h, Segment.leadingZeros, List.takeWhile_append_of_pos hzero, List.length_append,
    List.length_replicate]
  exact Nat.le_add_right _ _

/-- A byte that is not zero ends the zeros before it, and `operand` is all that can add to
the zeros in front of what follows. -/
theorem ZerosAtMost.cons_append {most : Nat} {b : UInt8} {operand data : List UInt8}
    (h : ZerosAtMost most data) (hb : b ≠ 0)
    (hmost : operand.length + Segment.leadingZeros data ≤ most) :
    ZerosAtMost most (b :: (operand ++ data)) := by
  intro front count back heq
  rw [← List.cons_append, List.append_assoc] at heq
  rcases List.append_eq_append_iff.mp heq with ⟨more, hfront, hdata⟩ | ⟨more, hblock, hzeros⟩
  · exact h more count back (by rw [hdata, List.append_assoc])
  · cases front with
    | nil =>
      -- The zeros would have to begin with `b`.
      rw [List.nil_append] at hblock
      rw [← hblock] at hzeros
      cases count with
      | zero => exact Nat.zero_le most
      | succ count => exact absurd (List.head_eq_of_cons_eq hzeros).symm hb
    | cons a front =>
      have hmore : more.length ≤ operand.length := by
        have hlength := congrArg List.length hblock
        simp only [List.length_cons, List.length_append] at hlength
        omega
      rcases Nat.lt_or_ge more.length count with hlt | hge
      · have hsplit : List.replicate count (0 : UInt8) =
            List.replicate more.length 0 ++ List.replicate (count - more.length) 0 := by
          rw [List.replicate_append_replicate]
          congr 1
          omega
        rw [hsplit, List.append_assoc] at hzeros
        have hrest := (List.append_inj hzeros (List.length_replicate ..)).2
        have hle := count_le_leadingZeros hrest.symm
        omega
      · omega

theorem Command.length_translation_le {size : Nat} {c : Command} (h : c.WellFormed size)
    (swap : Bool) : (c.translation swap).length ≤ 257 := by
  have hbits (bits : UInt8) : bytesForBits bits.toNat ≤ 32 := by
    have hlt := bits.toNat_lt
    exact bytesForBits_le_iff.mpr (by omega)
  cases c with
  | repeats count => exact Nat.zero_le 257
  | endIr value => exact Nat.zero_le 257
  | endDr value => exact Nat.zero_le 257
  | state value => exact Nat.le_add_right 2 255
  | sdrSize bits => exact Nat.le_add_right 3 254
  | runTest clocks => exact Nat.le_add_right 5 252
  | tdoMask mask =>
    obtain ⟨hmask, hsize⟩ := h
    simp only [translation, ite_reverse_eq_playOrder, List.length_cons, length_playOrder]
    omega
  | sir bits value =>
    have hvalue : value.length = bytesForBits bits.toNat := h
    have hmost := hbits bits
    simp only [translation, ite_reverse_eq_playOrder, List.length_cons, length_playOrder]
    omega
  | sdrTdo tdi tdo =>
    obtain ⟨htdi, htdo, hsize⟩ := h
    simp only [translation, ite_reverse_eq_playOrder, List.length_cons, length_playOrder,
      List.length_append]
    omega
  | raw opcode operand =>
    obtain ⟨-, hoperand, hsize⟩ := h
    simp only [translation, ite_reverse_eq_playOrder, List.length_cons, length_playOrder]
    omega

/-- No program is played with more than 257 zeros in a row. -/
theorem Program.zerosAtMost_translation {size : Nat} {commands : List Command}
    (h : WellFormed size commands) (swap : Bool) :
    ZerosAtMost 257 (translation swap commands) := by
  induction commands generalizing size with
  | nil =>
    intro front count back heq
    have hlength := congrArg List.length heq
    have hone : (translation swap []).length = 1 := rfl
    simp only [List.length_append, List.length_replicate, hone] at hlength
    omega
  | cons c commands ih =>
    have hzeros := leadingZeros_translation_le h.2 swap
    rw [translation_cons]
    rcases Command.translation_cases h.1 swap with hnil | ⟨b, operand, hcons, hb⟩
    · rw [hnil]
      exact ih h.2
    · have hlength := Command.length_translation_le h.1 swap
      rw [hcons, List.length_cons] at hlength
      rw [hcons]
      exact (ih h.2).cons_append hb (by omega)

theorem ZerosAtMost.run_le {most : Nat} {data : List UInt8} (h : ZerosAtMost most data) :
    ∀ s ∈ segments data, s.run ≤ most := by
  intro s hs
  obtain ⟨front, back, hsegments⟩ := List.append_of_mem hs
  have hdata : data = (Segment.join front ++ s.chunk) ++ List.replicate s.run 0 ++
      Segment.join back := by
    rw [← Segment.join_segments data, hsegments]
    simp [Segment.join, Segment.bytes]
  exact h _ _ _ hdata

theorem zerosAtMost_reorder {swap : Bool} {xsvf : List UInt8} {size : Nat}
    (h : (reorder swap xsvf .unbounded).result = .ok size) :
    ZerosAtMost 257 (reorder swap xsvf .unbounded).sink.toList := by
  obtain ⟨commands, ignored, hcommands, rfl⟩ := exists_of_reorder_ok h
  rw [toList_reorder_encode hcommands]
  exact Program.zerosAtMost_translation hcommands swap

end SerialVector
