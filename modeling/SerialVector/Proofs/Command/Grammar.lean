/-
The grammar of commands.

A command alone does not say whether it is well formed, because the vector size in
force decides how long its operands are.  `WellFormed` states the grammar without
looking at the reader.  The reader then takes a command exactly if it is well
formed, and leaves what follows the command alone.
-/
import SerialVector.Command.Progress
import SerialVector.Proofs.BigEndian
import SerialVector.Proofs.Cursor
import SerialVector.Proofs.Fallible

namespace SerialVector.Command

/-- The commands that a conversion handles while the vector size is `size`. -/
def WellFormed (size : Nat) : Command → Prop
  | tdoMask mask => mask.length = bytesForBits size ∧ bytesForBits size ≤ 128
  | sir bits value => value.length = bytesForBits bits.toNat
  | runTest _ => True
  | repeats _ => True
  | sdrSize bits => bits.toNat < 65536
  | sdrTdo tdi tdo =>
    tdi.length = bytesForBits size ∧ tdo.length = bytesForBits size ∧ bytesForBits size ≤ 128
  | state value => value = 0 ∨ value = 1
  | endIr value => value = 0
  | endDr value => value = 0
  | raw opcode operand =>
    (opcode = 0x0C ∨ opcode = 0x0D ∨ opcode = 0x0E) ∧ operand.length = bytesForBits size ∧
      bytesForBits size ≤ 256

instance (size : Nat) : DecidablePred (WellFormed size) := fun c => by
  cases c <;> unfold WellFormed <;> infer_instance

/-! ## Reads -/

theorem expectByte_cons (done : List Event) (position : Nat) (b : UInt8) (rest : List UInt8) :
    expectByte done ⟨position, b :: rest⟩ = .ok (b, ⟨position + 1, rest⟩) := rfl

theorem expectBytes_append (done : List Event) (position : Nat) (bytes rest : List UInt8) :
    expectBytes done bytes.length ⟨position, bytes ++ rest⟩ =
      .ok (bytes, ⟨position + bytes.length, rest⟩) := by
  rw [expectBytes, Cursor.nextBytes_append]
  rfl

theorem rest_of_expectByte {done : List Event} {c d : Cursor} {b : UInt8}
    (h : expectByte done c = .ok (b, d)) : c.rest = b :: d.rest := by
  obtain ⟨position, rest⟩ := c
  cases rest with
  | nil => cases h
  | cons a rest =>
    rw [expectByte_cons] at h
    simp only [Except.ok.injEq, Prod.mk.injEq] at h
    obtain ⟨rfl, rfl⟩ := h
    rfl

theorem rest_of_expectBytes {done : List Event} {count : Nat} {c d : Cursor}
    {bytes : List UInt8} (h : expectBytes done count c = .ok (bytes, d)) :
    c.rest = bytes ++ d.rest ∧ bytes.length = count := by
  have hread : c.nextBytes count = .ok (bytes, d) := eq_ok_of_mapError h
  cases ht : c.take? count with
  | none =>
    rw [Cursor.nextBytes, ht] at hread
    cases hread
  | some p =>
    rw [Cursor.nextBytes, ht] at hread
    cases hread
    obtain ⟨hrest, hlength, -⟩ := Cursor.take?_eq_some_iff.mp ht
    exact ⟨hrest, hlength⟩

theorem encode_decode_word {bytes : List UInt8} (h : bytes.length = 4) :
    BigEndian.encode 4 (UInt32.ofNat (BigEndian.decode bytes)).toNat = bytes := by
  have hlt := BigEndian.decode_lt bytes
  rw [h] at hlt
  rw [UInt32.toNat_ofNat_of_lt' hlt, ← h]
  exact BigEndian.encode_decode bytes

theorem read_opcode (size position : Nat) (o : Opcode) (rest : List UInt8) :
    read size ⟨position, o.toByte :: rest⟩ =
      (readOperands o position size ⟨position + 1, rest⟩).mapError (begun o.toByte position) := by
  rw [read, expectByte_cons, ok_bind]
  simp only [Opcode.ofByte?_toByte]

/-! ## Well formed commands are read -/

section Complete

variable {size : Nat} (position : Nat) (rest : List UInt8)

theorem readCompare_append (opcode : Opcode) (parts : Nat) (command : Nat → List UInt8 → Command)
    (operand : List UInt8) (hlength : operand.length = parts * bytesForBits size)
    (hsize : bytesForBits size ≤ 128) :
    readCompare opcode parts command size ⟨position, operand ++ rest⟩ =
      .ok (some (command (bytesForBits size) operand), ⟨position + operand.length, rest⟩) := by
  have hmax : ¬ maxCompare < bytesForBits size := by
    unfold maxCompare
    omega
  simp only [readCompare, hmax, if_false]
  rw [← hlength, expectBytes_append]
  rfl

theorem readShift_append (opcode : Opcode) {operand : List UInt8}
    (hlength : operand.length = bytesForBits size) (hsize : bytesForBits size ≤ 256) :
    readShift opcode size ⟨position, operand ++ rest⟩ =
      .ok (some (.raw opcode.toByte operand), ⟨position + operand.length, rest⟩) := by
  have hmax : ¬ maxShift < bytesForBits size := by
    unfold maxShift
    omega
  simp only [readShift, hmax, if_false]
  rw [← hlength, expectBytes_append]
  rfl

theorem read_of_readOperands {c : Command} (o : Opcode) (hbyte : o.toByte = c.opcodeByte)
    (hread : readOperands o position size ⟨position + 1, c.operandBytes ++ rest⟩ =
      .ok (some c, ⟨position + 1 + c.operandBytes.length, rest⟩)) :
    read size ⟨position, c.encode ++ rest⟩ = .ok (some c, ⟨position + c.encode.length, rest⟩) := by
  have hlength : position + c.encode.length = position + 1 + c.operandBytes.length := by
    rw [encode, List.length_cons]
    omega
  rw [hlength, encode, ← hbyte, List.cons_append, read_opcode, hread]
  rfl

/-- A well formed command is read whole and nothing behind it. -/
theorem read_encode {c : Command} (h : c.WellFormed size) :
    read size ⟨position, c.encode ++ rest⟩ = .ok (some c, ⟨position + c.encode.length, rest⟩) := by
  cases c with
  | tdoMask mask =>
    have hread := readCompare_append (position + 1) rest .tdoMask 1 (fun _ mask => .tdoMask mask)
      mask (by rw [h.1]; omega) h.2
    exact read_of_readOperands position rest .tdoMask rfl hread
  | sdrTdo tdi tdo =>
    obtain ⟨htdi, htdo, hsize⟩ := h
    have hread := readCompare_append (position + 1) rest .sdrTdo 2
      (fun count both => .sdrTdo (both.take count) (both.drop count)) (tdi ++ tdo)
      (by rw [List.length_append, htdi, htdo]; omega) hsize
    rw [← htdi, List.take_left, List.drop_left] at hread
    exact read_of_readOperands position rest .sdrTdo rfl hread
  | raw opcode operand =>
    obtain ⟨hopcode, hlength, hsize⟩ := h
    rcases hopcode with rfl | rfl | rfl
    · exact read_of_readOperands position rest .sdrB rfl
        (readShift_append (position + 1) rest .sdrB hlength hsize)
    · exact read_of_readOperands position rest .sdrC rfl
        (readShift_append (position + 1) rest .sdrC hlength hsize)
    · exact read_of_readOperands position rest .sdrE rfl
        (readShift_append (position + 1) rest .sdrE hlength hsize)
  | sir bits value =>
    have hvalue : value.length = bytesForBits bits.toNat := h
    refine read_of_readOperands position rest .sir rfl ?_
    simp only [readOperands, operandBytes, List.cons_append, expectByte_cons]
    show (expectBytes _ (bytesForBits bits.toNat) ⟨position + 1 + 1, value ++ rest⟩ >>= _) = _
    rw [← hvalue, expectBytes_append, List.length_cons, Nat.add_right_comm (position + 1)]
    rfl
  | runTest clocks =>
    refine read_of_readOperands position rest .runTest rfl ?_
    have hread := expectBytes_append [.write [Opcode.runTest.toByte]] (position + 1)
      (BigEndian.encode 4 clocks.toNat) rest
    rw [BigEndian.length_encode] at hread
    simp only [readOperands, operandBytes, hread]
    show Except.ok (some (runTest (UInt32.ofNat (BigEndian.decode _))), _) = _
    rw [BigEndian.decode_encode_of_lt clocks.toNat_lt, UInt32.ofNat_toNat, BigEndian.length_encode]
  | sdrSize bits =>
    have hbits : bits.toNat < 65536 := h
    refine read_of_readOperands position rest .sdrSize rfl ?_
    have hread := expectBytes_append [.write [Opcode.sdrSize.toByte]] (position + 1)
      (BigEndian.encode 4 bits.toNat) rest
    rw [BigEndian.length_encode] at hread
    simp only [readOperands, operandBytes, hread]
    show (if (UInt32.ofNat (BigEndian.decode _)).toNat < 65536 then _ else _) = _
    rw [BigEndian.decode_encode_of_lt bits.toNat_lt, UInt32.ofNat_toNat, if_pos hbits,
      BigEndian.length_encode]
    rfl
  | repeats count => exact read_of_readOperands position rest .repeats rfl rfl
  | state value =>
    have hvalue : value = 0 ∨ value = 1 := h
    refine read_of_readOperands position rest .state rfl ?_
    show (if TapState.isStableByte value = true then _ else _) = _
    rw [if_pos (TapState.isStableByte_iff.mpr hvalue)]
    rfl
  | endIr value =>
    have hvalue : value = 0 := h
    subst hvalue
    exact read_of_readOperands position rest .endIr rfl rfl
  | endDr value =>
    have hvalue : value = 0 := h
    subst hvalue
    exact read_of_readOperands position rest .endDr rfl rfl

end Complete

/-! ## Only well formed commands are read -/

section Sound

variable {size : Nat} {c d : Cursor} {result : Option Command}

theorem exists_of_readCompare {opcode : Opcode} {parts : Nat}
    {command : Nat → List UInt8 → Command}
    (h : readCompare opcode parts command size c = .ok (result, d)) :
    ∃ operand, result = some (command (bytesForBits size) operand) ∧
      operand.length = parts * bytesForBits size ∧ bytesForBits size ≤ 128 ∧
      c.rest = operand ++ d.rest := by
  by_cases hmax : maxCompare < bytesForBits size
  · simp only [readCompare, hmax, if_true, reduceCtorEq] at h
  · simp only [readCompare, hmax, if_false] at h
    obtain ⟨⟨operand, e⟩, hread, hpure⟩ := exists_of_bind_eq_ok h
    cases hpure
    obtain ⟨hrest, hlength⟩ := rest_of_expectBytes hread
    exact ⟨operand, rfl, hlength, Nat.le_of_not_lt hmax, hrest⟩

theorem exists_of_readShift {opcode : Opcode}
    (h : readShift opcode size c = .ok (result, d)) :
    ∃ operand, result = some (raw opcode.toByte operand) ∧
      operand.length = bytesForBits size ∧ bytesForBits size ≤ 256 ∧
      c.rest = operand ++ d.rest := by
  by_cases hmax : maxShift < bytesForBits size
  · simp only [readShift, hmax, if_true, reduceCtorEq] at h
  · simp only [readShift, hmax, if_false] at h
    obtain ⟨⟨operand, e⟩, hread, hpure⟩ := exists_of_bind_eq_ok h
    cases hpure
    obtain ⟨hrest, hlength⟩ := rest_of_expectBytes hread
    exact ⟨operand, rfl, hlength, Nat.le_of_not_lt hmax, hrest⟩

theorem eq_of_readEnd {opcode : Opcode} {command : UInt8 → Command}
    (h : readEnd opcode command c = .ok (result, d)) :
    result = some (command 0) ∧ c.rest = 0 :: d.rest := by
  obtain ⟨⟨value, e⟩, hread, hvalue⟩ := exists_of_bind_eq_ok h
  have hrest := rest_of_expectByte hread
  by_cases hzero : value = 0
  · subst hzero
    cases hvalue
    exact ⟨rfl, hrest⟩
  · simp only [hzero, if_false, reduceCtorEq] at hvalue

/-- What a reader of operands took from `c` on the way to `d`. -/
def Took (size : Nat) (o : Opcode) (c d : Cursor) : Option Command → Prop
  | none => o = .complete ∧ d = c
  | some command =>
    command.WellFormed size ∧ command.opcodeByte = o.toByte ∧
      c.rest = command.operandBytes ++ d.rest

theorem took_of_readShift {o : Opcode} (ho : o = .sdrB ∨ o = .sdrC ∨ o = .sdrE)
    (h : readShift o size c = .ok (result, d)) : Took size o c d result := by
  obtain ⟨operand, rfl, hlength, hsize, hrest⟩ := exists_of_readShift h
  refine ⟨⟨?_, hlength, hsize⟩, rfl, hrest⟩
  rcases ho with rfl | rfl | rfl <;> decide

theorem took_of_readOperands {o : Opcode} {offset : Nat}
    (h : readOperands o offset size c = .ok (result, d)) : Took size o c d result := by
  cases o with
  | complete =>
    cases h
    exact ⟨rfl, rfl⟩
  | tdoMask =>
    simp only [readOperands] at h
    obtain ⟨operand, rfl, hlength, hsize, hrest⟩ := exists_of_readCompare h
    exact ⟨⟨by omega, hsize⟩, rfl, hrest⟩
  | sdrTdo =>
    simp only [readOperands] at h
    obtain ⟨operand, rfl, hlength, hsize, hrest⟩ := exists_of_readCompare h
    refine ⟨⟨?_, ?_, hsize⟩, rfl, ?_⟩
    · rw [List.length_take]
      omega
    · rw [List.length_drop]
      omega
    · show c.rest = (_ ++ _) ++ d.rest
      rw [List.take_append_drop, hrest]
  | sdrB => exact took_of_readShift (.inl rfl) h
  | sdrC => exact took_of_readShift (.inr (.inl rfl)) h
  | sdrE => exact took_of_readShift (.inr (.inr rfl)) h
  | sir =>
    obtain ⟨⟨bits, e⟩, hbits, h⟩ := exists_of_bind_eq_ok h
    obtain ⟨⟨value, f⟩, hvalue, hpure⟩ := exists_of_bind_eq_ok h
    cases hpure
    obtain ⟨hrest, hlength⟩ := rest_of_expectBytes hvalue
    refine ⟨hlength, rfl, ?_⟩
    rw [rest_of_expectByte hbits, hrest]
    rfl
  | runTest =>
    obtain ⟨⟨clocks, e⟩, hclocks, hpure⟩ := exists_of_bind_eq_ok h
    cases hpure
    obtain ⟨hrest, hlength⟩ := rest_of_expectBytes hclocks
    refine ⟨trivial, rfl, ?_⟩
    rw [hrest]
    show clocks ++ _ = BigEndian.encode 4 (UInt32.ofNat (BigEndian.decode clocks)).toNat ++ _
    rw [encode_decode_word hlength]
  | sdrSize =>
    obtain ⟨⟨value, e⟩, hvalue, h⟩ := exists_of_bind_eq_ok h
    obtain ⟨hrest, hlength⟩ := rest_of_expectBytes hvalue
    by_cases hbits : (UInt32.ofNat (BigEndian.decode value)).toNat < 65536
    · simp only [hbits, if_true] at h
      cases h
      refine ⟨hbits, rfl, ?_⟩
      rw [hrest]
      show value ++ _ = BigEndian.encode 4 (UInt32.ofNat (BigEndian.decode value)).toNat ++ _
      rw [encode_decode_word hlength]
    · simp only [hbits, if_false, reduceCtorEq] at h
  | repeats =>
    obtain ⟨⟨count, e⟩, hcount, hpure⟩ := exists_of_bind_eq_ok h
    cases hpure
    exact ⟨trivial, rfl, rest_of_expectByte hcount⟩
  | state =>
    obtain ⟨⟨value, e⟩, hvalue, h⟩ := exists_of_bind_eq_ok h
    by_cases hstable : TapState.isStableByte value = true
    · simp only [hstable, if_true] at h
      cases h
      exact ⟨TapState.isStableByte_iff.mp hstable, rfl, rest_of_expectByte hvalue⟩
    · simp only [hstable, if_false, Bool.false_eq_true, reduceCtorEq] at h
  | endIr =>
    obtain ⟨rfl, hrest⟩ := eq_of_readEnd h
    exact ⟨rfl, rfl, hrest⟩
  | endDr =>
    obtain ⟨rfl, hrest⟩ := eq_of_readEnd h
    exact ⟨rfl, rfl, hrest⟩
  | sdr | setSdrMasks | sdrInc | sdrTdoB | sdrTdoC | sdrTdoE | sir2 | comment | wait => cases h

/-- Whatever is read begins with its opcode. -/
theorem exists_of_read (h : read size c = .ok (result, d)) :
    ∃ o rest, c.rest = Opcode.toByte o :: rest ∧
      Took size o ⟨c.position + 1, rest⟩ d result := by
  obtain ⟨position, rest⟩ := c
  cases rest with
  | nil => rw [read_of_rest_nil rfl] at h; cases h
  | cons b rest =>
    cases ho : Opcode.ofByte? b with
    | none =>
      simp only [read, expectByte_cons] at h
      have h' := eq_ok_of_mapError h
      simp only [ho, reduceCtorEq] at h'
    | some o =>
      obtain rfl := Opcode.toByte_of_ofByte? ho
      rw [read_opcode] at h
      exact ⟨o, rest, rfl, took_of_readOperands (eq_ok_of_mapError h)⟩

theorem wellFormed_of_read {command : Command} (h : read size c = .ok (some command, d)) :
    command.WellFormed size ∧ c.rest = command.encode ++ d.rest := by
  obtain ⟨o, rest, hc, hformed, hbyte, hrest⟩ := exists_of_read h
  refine ⟨hformed, ?_⟩
  rw [hc, encode, hbyte, List.cons_append, ← hrest]

theorem rest_of_read_none (h : read size c = .ok (none, d)) :
    c.rest = Opcode.complete.toByte :: d.rest := by
  obtain ⟨o, rest, hc, rfl, rfl⟩ := exists_of_read h
  exact hc

end Sound

end SerialVector.Command
