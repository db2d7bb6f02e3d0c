/-
Bytes that no command is read from.

`Cut` and `Refused` say, without looking at the reader, where a program cannot go on:
with which error, what was written of the command by then and how far the reader came.
The reader then fails exactly there.  An opcode is written before its operand is seen,
except where the vector size alone already rules the command out of a compare, so that
each kind of command has its own place for the error.
-/
import SerialVector.Proofs.Program.Translation

namespace SerialVector.Command

/-- A command writes its opcode and then takes so many operand bytes in one piece.
A vector that is too long is refused before it is taken. -/
inductive Awaits (size : Nat) : Opcode → Nat → Prop where
  | byte {o : Opcode} (ho : o = .sir ∨ o = .state) : Awaits size o 1
  | word {o : Opcode} (ho : o = .runTest ∨ o = .sdrSize) : Awaits size o 4
  | mask (hsize : bytesForBits size ≤ 128) : Awaits size .tdoMask (bytesForBits size)
  | compare (hsize : bytesForBits size ≤ 128) : Awaits size .sdrTdo (2 * bytesForBits size)
  | shift {o : Opcode} (ho : o = .sdrB ∨ o = .sdrC ∨ o = .sdrE)
    (hsize : bytesForBits size ≤ 256) : Awaits size o (bytesForBits size)

/-- The bytes end inside a command, or before one.  With them stand what was written of
the command and how many of its bytes were taken. -/
inductive Cut (size : Nat) : List UInt8 → List UInt8 → Nat → Prop where
  | nothing : Cut size [] [] 0
  | unwritten {o : Opcode} (ho : o = .repeats ∨ o = .endIr ∨ o = .endDr) :
    Cut size [o.toByte] [] 1
  | operand {o : Opcode} {count : Nat} {operand : List UInt8} (ho : Awaits size o count)
    (hcut : operand.length < count) : Cut size (o.toByte :: operand) [o.toByte] 1
  | value {bits : UInt8} {value : List UInt8} (hcut : value.length < bytesForBits bits.toNat) :
    Cut size (0x02 :: bits :: value) [0x02, bits] 2

/-- No command stands at the front of the bytes, which begin at `offset`.  With them
stand the error, what was written before it and how many bytes were taken. -/
inductive Refused (size offset : Nat) :
    List UInt8 → ConversionError → List UInt8 → Nat → Prop where
  | unsupported {b : UInt8} {rest : List UInt8}
    (hb : ∀ o, Opcode.ofByte? b = some o → o.isSupported = false) :
    Refused size offset (b :: rest) (.unsupportedCommand b offset) [] 1
  | state {value : UInt8} {rest : List UInt8} (hvalue : ¬ (value = 0 ∨ value = 1)) :
    Refused size offset (0x12 :: value :: rest) (.unsupportedData .state value) [0x12] 2
  | endState {o : Opcode} {value : UInt8} {rest : List UInt8} (ho : o = .endIr ∨ o = .endDr)
    (hvalue : value ≠ 0) :
    Refused size offset (o.toByte :: value :: rest) (.unsupportedData o value) [] 2
  | highBits {value : UInt32} {rest : List UInt8} (hvalue : 65536 ≤ value.toNat) :
    Refused size offset (0x08 :: (BigEndian.encode 4 value.toNat ++ rest))
      (.unsupportedSize (.sizeHighBits value)) [0x08] 5
  | compare {o : Opcode} {rest : List UInt8} (ho : o = .tdoMask ∨ o = .sdrTdo)
    (hsize : 128 < bytesForBits size) :
    Refused size offset (o.toByte :: rest)
      (.unsupportedSize (.operandTooLarge 128 (bytesForBits size))) [] 1
  | shift {o : Opcode} {rest : List UInt8} (ho : o = .sdrB ∨ o = .sdrC ∨ o = .sdrE)
    (hsize : 256 < bytesForBits size) :
    Refused size offset (o.toByte :: rest)
      (.unsupportedSize (.operandTooLarge 256 (bytesForBits size))) [o.toByte] 1
  | cut {bytes written : List UInt8} {count : Nat} (hcut : Cut size bytes written count) :
    Refused size offset bytes (.truncated (offset + count)) written count

/-! ## Reads that fail -/

theorem expectBytes_of_short {count : Nat} {rest : List UInt8} (h : rest.length < count)
    (done : List Event) (position : Nat) :
    expectBytes done count ⟨position, rest⟩ = .error ⟨done, .truncated position⟩ := by
  have htake : Cursor.take? count ⟨position, rest⟩ = none := Cursor.take?_eq_none_iff.mpr h
  rw [expectBytes, Cursor.nextBytes, htake]
  rfl

section Reads

variable {done : List Event} {position : Nat} {rest : List UInt8} {fault : Fault}

theorem eq_of_expectByte_error (h : expectByte done ⟨position, rest⟩ = .error fault) :
    rest = [] ∧ fault = ⟨done, .truncated position⟩ := by
  cases rest with
  | nil => cases h; exact ⟨rfl, rfl⟩
  | cons b rest => cases h

theorem eq_of_expectBytes_error {count : Nat}
    (h : expectBytes done count ⟨position, rest⟩ = .error fault) :
    rest.length < count ∧ fault = ⟨done, .truncated position⟩ := by
  by_cases hshort : rest.length < count
  · rw [expectBytes_of_short hshort] at h
    cases h
    exact ⟨hshort, rfl⟩
  · cases htake : Cursor.take? count ⟨position, rest⟩ with
    | none => exact absurd (Cursor.take?_eq_none_iff.mp htake) hshort
    | some p =>
      rw [expectBytes, Cursor.nextBytes, htake] at h
      cases h

end Reads

/-! ## The reader refuses what is refused -/

section Complete

variable {size position : Nat} {rest : List UInt8}

theorem readCompare_of_large (opcode : Opcode) (parts : Nat)
    (command : Nat → List UInt8 → Command) (hsize : 128 < bytesForBits size) (c : Cursor) :
    readCompare opcode parts command size c =
      .error ⟨[], .unsupportedSize (.operandTooLarge 128 (bytesForBits size))⟩ :=
  if_pos hsize

theorem readCompare_of_short (opcode : Opcode) (parts : Nat)
    (command : Nat → List UInt8 → Command) (hsize : bytesForBits size ≤ 128)
    (hcut : rest.length < parts * bytesForBits size) (position : Nat) :
    readCompare opcode parts command size ⟨position, rest⟩ =
      .error ⟨[.write [opcode.toByte]], .truncated position⟩ := by
  have hmax : ¬ maxCompare < bytesForBits size := Nat.not_lt.mpr hsize
  simp only [readCompare, hmax, if_false]
  rw [expectBytes_of_short hcut, error_bind]

theorem readShift_of_large (opcode : Opcode) (hsize : 256 < bytesForBits size) (c : Cursor) :
    readShift opcode size c = .error ⟨[.write [opcode.toByte]],
      .unsupportedSize (.operandTooLarge 256 (bytesForBits size))⟩ :=
  if_pos hsize

theorem readShift_of_short (opcode : Opcode) (hsize : bytesForBits size ≤ 256)
    (hcut : rest.length < bytesForBits size) (position : Nat) :
    readShift opcode size ⟨position, rest⟩ =
      .error ⟨[.write [opcode.toByte]], .truncated position⟩ := by
  have hmax : ¬ maxShift < bytesForBits size := Nat.not_lt.mpr hsize
  simp only [readShift, hmax, if_false]
  rw [expectBytes_of_short hcut, error_bind]

theorem readOperands_of_shift {o : Opcode} (ho : o = .sdrB ∨ o = .sdrC ∨ o = .sdrE)
    (offset : Nat) (c : Cursor) : readOperands o offset size c = readShift o size c := by
  rcases ho with rfl | rfl | rfl <;> rfl

theorem readOperands_of_awaits {o : Opcode} {count : Nat} (ho : Awaits size o count)
    (hcut : rest.length < count) (offset position : Nat) :
    readOperands o offset size ⟨position, rest⟩ =
      .error ⟨[.write [o.toByte]], .truncated position⟩ := by
  cases ho with
  | byte ho =>
    have hnil : rest = [] := List.eq_nil_of_length_eq_zero (by omega)
    subst hnil
    rcases ho with rfl | rfl <;> rfl
  | word ho =>
    rcases ho with rfl | rfl
    · simp only [readOperands]
      rw [expectBytes_of_short hcut, error_bind]
    · simp only [readOperands]
      rw [expectBytes_of_short hcut, error_bind]
  | mask hsize =>
    simp only [readOperands]
    exact readCompare_of_short _ 1 _ hsize (by omega) position
  | compare hsize =>
    simp only [readOperands]
    exact readCompare_of_short _ 2 _ hsize hcut position
  | shift ho hsize =>
    rw [readOperands_of_shift ho]
    exact readShift_of_short o hsize hcut position

/-- The reader fails with an error, having written and taken so much. -/
def Fails (size position : Nat) (bytes : List UInt8) (error : ConversionError)
    (written : List UInt8) (count : Nat) : Prop :=
  ∃ events, read size ⟨position, bytes⟩ = .error ⟨events, error⟩ ∧
    Event.written events = written ∧ Event.consumed events = count

theorem fails_of_readOperands {o : Opcode} {events : List Event} {error : ConversionError}
    {written : List UInt8} {count : Nat}
    (h : readOperands o position size ⟨position + 1, rest⟩ = .error ⟨events, error⟩)
    (hwritten : Event.written events = written) (hcount : 1 + Event.consumed events = count) :
    Fails size position (o.toByte :: rest) error written count := by
  refine ⟨heading o.toByte position ++ events, ?_, ?_, ?_⟩
  · rw [read_opcode, h]
    rfl
  · rw [Event.written_append, written_heading, List.nil_append, hwritten]
  · rw [Event.consumed_append, consumed_heading, hcount]

theorem readOperands_of_not_supported {o : Opcode} (ho : o.isSupported = false)
    (offset : Nat) (c : Cursor) :
    readOperands o offset size c = .error ⟨[], .unsupportedCommand o.toByte offset⟩ := by
  cases o with
  | sdr | setSdrMasks | sdrInc | sdrTdoB | sdrTdoC | sdrTdoE | sir2 | comment | wait => rfl
  | complete | tdoMask | sir | runTest | repeats | sdrSize | sdrTdo | sdrB | sdrC | sdrE | state
  | endIr | endDr => cases ho

theorem fails_of_unsupported {b : UInt8}
    (hb : ∀ o, Opcode.ofByte? b = some o → o.isSupported = false) :
    Fails size position (b :: rest) (.unsupportedCommand b position) [] 1 := by
  cases ho : Opcode.ofByte? b with
  | some o =>
    have hread : readOperands o position size ⟨position + 1, rest⟩ =
        .error ⟨[], .unsupportedCommand o.toByte position⟩ :=
      readOperands_of_not_supported (hb o ho) position _
    rw [← Opcode.toByte_of_ofByte? ho]
    exact fails_of_readOperands hread rfl rfl
  | none =>
    refine ⟨heading b position ++ [], ?_, ?_, ?_⟩
    · rw [read, expectByte_cons, ok_bind]
      simp only [ho]
      rfl
    · rw [List.append_nil, written_heading]
    · rw [List.append_nil, consumed_heading]

theorem fails_of_cut {bytes written : List UInt8} {count : Nat}
    (h : Cut size bytes written count) :
    Fails size position bytes (.truncated (position + count)) written count := by
  cases h with
  | nothing => exact ⟨[], read_of_rest_nil rfl, rfl, rfl⟩
  | @unwritten o ho =>
    have hread : readOperands o position size ⟨position + 1, []⟩ =
        .error ⟨[], .truncated (position + 1)⟩ := by
      rcases ho with rfl | rfl | rfl <;> rfl
    exact fails_of_readOperands hread rfl rfl
  | operand ho hcut =>
    exact fails_of_readOperands (readOperands_of_awaits ho hcut _ _) rfl rfl
  | @value bits value hcut =>
    have hread : readOperands .sir position size ⟨position + 1, bits :: value⟩ =
        .error ⟨[.write [0x02], .read 1, .write [bits]], .truncated (position + 2)⟩ := by
      simp only [readOperands]
      rw [expectByte_cons, ok_bind]
      show (expectBytes _ (bytesForBits bits.toNat) _ >>= _) = _
      rw [expectBytes_of_short hcut, error_bind]
      rfl
    exact fails_of_readOperands hread rfl rfl

theorem fails_of_refused {bytes written : List UInt8} {error : ConversionError} {count : Nat}
    (h : Refused size position bytes error written count) :
    Fails size position bytes error written count := by
  cases h with
  | unsupported hb => exact fails_of_unsupported hb
  | @state value rest hvalue =>
    have hstable : ¬ TapState.isStableByte value = true := by
      rw [TapState.isStableByte_iff]
      exact hvalue
    have hread : readOperands .state position size ⟨position + 1, value :: rest⟩ =
        .error ⟨[.write [0x12], .read 1], .unsupportedData .state value⟩ := by
      show (if TapState.isStableByte value = true then _ else _) = _
      rw [if_neg hstable]
      rfl
    exact fails_of_readOperands hread rfl rfl
  | @endState o value rest ho hvalue =>
    have hread (command : UInt8 → Command) :
        readEnd o command ⟨position + 1, value :: rest⟩ =
          .error ⟨[.read 1], .unsupportedData o value⟩ := by
      show (if value = 0 then _ else _) = _
      rw [if_neg hvalue]
    rcases ho with rfl | rfl
    · exact fails_of_readOperands (hread .endIr) rfl rfl
    · exact fails_of_readOperands (hread .endDr) rfl rfl
  | @highBits value rest hvalue =>
    have htake := expectBytes_append [.write [Opcode.sdrSize.toByte]] (position + 1)
      (BigEndian.encode 4 value.toNat) rest
    rw [BigEndian.length_encode] at htake
    have hread : readOperands .sdrSize position size
          ⟨position + 1, BigEndian.encode 4 value.toNat ++ rest⟩ =
        .error ⟨[.write [0x08], .read 4], .unsupportedSize (.sizeHighBits value)⟩ := by
      simp only [readOperands, htake]
      show (if (UInt32.ofNat (BigEndian.decode _)).toNat < 65536 then _ else _) = _
      rw [BigEndian.decode_encode_of_lt value.toNat_lt, UInt32.ofNat_toNat,
        if_neg (Nat.not_lt.mpr hvalue)]
      rfl
    exact fails_of_readOperands hread rfl rfl
  | @compare o rest ho hsize =>
    have hread : readOperands o position size ⟨position + 1, rest⟩ =
        .error ⟨[], .unsupportedSize (.operandTooLarge 128 (bytesForBits size))⟩ := by
      rcases ho with rfl | rfl
      · simp only [readOperands]
        exact readCompare_of_large _ 1 _ hsize _
      · simp only [readOperands]
        exact readCompare_of_large _ 2 _ hsize _
    exact fails_of_readOperands hread rfl rfl
  | @shift o rest ho hsize =>
    have hread : readOperands o position size ⟨position + 1, rest⟩ = .error
        ⟨[.write [o.toByte]], .unsupportedSize (.operandTooLarge 256 (bytesForBits size))⟩ := by
      rw [readOperands_of_shift ho]
      exact readShift_of_large o hsize _
    exact fails_of_readOperands hread rfl rfl
  | cut hcut => exact fails_of_cut hcut

end Complete

/-! ## The reader refuses nothing else -/

section Sound

variable {size position : Nat} {rest : List UInt8} {fault : Fault}

/-- The fault of an operand reader is one of a command that is refused. -/
def RefusedBehind (size position : Nat) (o : Opcode) (rest : List UInt8) (fault : Fault) :
    Prop :=
  Refused size position (o.toByte :: rest) fault.error (Event.written fault.events)
    (1 + Event.consumed fault.events)

theorem refused_of_readCompare {o : Opcode} {parts : Nat}
    {command : Nat → List UInt8 → Command} (ho : o = .tdoMask ∨ o = .sdrTdo)
    (hawaits : bytesForBits size ≤ 128 → Awaits size o (parts * bytesForBits size))
    (h : readCompare o parts command size ⟨position + 1, rest⟩ = .error fault) :
    RefusedBehind size position o rest fault := by
  by_cases hsize : 128 < bytesForBits size
  · rw [readCompare_of_large o parts command hsize] at h
    cases h
    exact .compare ho hsize
  · have hmax : ¬ maxCompare < bytesForBits size := hsize
    simp only [readCompare, hmax, if_false] at h
    rcases exists_of_bind_eq_error h with h | ⟨a, _, h⟩
    · obtain ⟨hcut, rfl⟩ := eq_of_expectBytes_error h
      exact .cut (.operand (hawaits (Nat.le_of_not_lt hsize)) hcut)
    · cases h

theorem refused_of_readShift {o : Opcode} (ho : o = .sdrB ∨ o = .sdrC ∨ o = .sdrE)
    (h : readShift o size ⟨position + 1, rest⟩ = .error fault) :
    RefusedBehind size position o rest fault := by
  by_cases hsize : 256 < bytesForBits size
  · rw [readShift_of_large o hsize] at h
    cases h
    exact .shift ho hsize
  · have hmax : ¬ maxShift < bytesForBits size := hsize
    simp only [readShift, hmax, if_false] at h
    rcases exists_of_bind_eq_error h with h | ⟨a, _, h⟩
    · obtain ⟨hcut, rfl⟩ := eq_of_expectBytes_error h
      exact .cut (.operand (.shift ho (Nat.le_of_not_lt hsize)) hcut)
    · cases h

theorem refused_of_readEnd {o : Opcode} {command : UInt8 → Command}
    (ho : o = .endIr ∨ o = .endDr)
    (h : readEnd o command ⟨position + 1, rest⟩ = .error fault) :
    RefusedBehind size position o rest fault := by
  rcases exists_of_bind_eq_error h with h | ⟨⟨value, d⟩, hvalue, h⟩
  · obtain ⟨rfl, rfl⟩ := eq_of_expectByte_error h
    exact .cut (.unwritten (.inr ho))
  · have hrest : rest = value :: d.rest := rest_of_expectByte hvalue
    by_cases hzero : value = 0
    · simp only [hzero, if_true] at h
      cases h
    · simp only [hzero, if_false] at h
      cases h
      rw [hrest]
      exact .endState ho hzero

theorem refused_of_readOperands {o : Opcode}
    (h : readOperands o position size ⟨position + 1, rest⟩ = .error fault) :
    RefusedBehind size position o rest fault := by
  cases o with
  | complete => cases h
  | tdoMask =>
    simp only [readOperands] at h
    refine refused_of_readCompare (.inl rfl) (fun hsize => ?_) h
    rw [Nat.one_mul]
    exact .mask hsize
  | sdrTdo =>
    simp only [readOperands] at h
    exact refused_of_readCompare (.inr rfl) .compare h
  | sdrB => exact refused_of_readShift (.inl rfl) h
  | sdrC => exact refused_of_readShift (.inr (.inl rfl)) h
  | sdrE => exact refused_of_readShift (.inr (.inr rfl)) h
  | endIr => exact refused_of_readEnd (.inl rfl) h
  | endDr => exact refused_of_readEnd (.inr rfl) h
  | sir =>
    rcases exists_of_bind_eq_error h with h | ⟨⟨bits, d⟩, hbits, h⟩
    · obtain ⟨rfl, rfl⟩ := eq_of_expectByte_error h
      exact .cut (.operand (.byte (.inl rfl)) Nat.zero_lt_one)
    · cases rest with
      | nil => cases hbits
      | cons b rest =>
        cases hbits
        rcases exists_of_bind_eq_error h with h | ⟨a, _, h⟩
        · obtain ⟨hcut, rfl⟩ := eq_of_expectBytes_error h
          exact .cut (.value hcut)
        · cases h
  | runTest =>
    rcases exists_of_bind_eq_error h with h | ⟨a, _, h⟩
    · obtain ⟨hcut, rfl⟩ := eq_of_expectBytes_error h
      exact .cut (.operand (.word (.inl rfl)) hcut)
    · cases h
  | sdrSize =>
    rcases exists_of_bind_eq_error h with h | ⟨⟨value, d⟩, hvalue, h⟩
    · obtain ⟨hcut, rfl⟩ := eq_of_expectBytes_error h
      exact .cut (.operand (.word (.inr rfl)) hcut)
    · obtain ⟨hrest, hlength⟩ := rest_of_expectBytes hvalue
      by_cases hbits : (UInt32.ofNat (BigEndian.decode value)).toNat < 65536
      · simp only [hbits, if_true] at h
        cases h
      · simp only [hbits, if_false] at h
        cases h
        have hcons : rest =
            BigEndian.encode 4 (UInt32.ofNat (BigEndian.decode value)).toNat ++ d.rest := by
          rw [encode_decode_word hlength]
          exact hrest
        rw [hcons]
        exact .highBits (Nat.le_of_not_lt hbits)
  | repeats =>
    rcases exists_of_bind_eq_error h with h | ⟨a, _, h⟩
    · obtain ⟨rfl, rfl⟩ := eq_of_expectByte_error h
      exact .cut (.unwritten (.inl rfl))
    · cases h
  | state =>
    rcases exists_of_bind_eq_error h with h | ⟨⟨value, d⟩, hvalue, h⟩
    · obtain ⟨rfl, rfl⟩ := eq_of_expectByte_error h
      exact .cut (.operand (.byte (.inr rfl)) Nat.zero_lt_one)
    · have hcons : rest = value :: d.rest := rest_of_expectByte hvalue
      by_cases hstable : TapState.isStableByte value = true
      · simp only [hstable, if_true] at h
        cases h
      · simp only [hstable, if_false, Bool.false_eq_true] at h
        cases h
        rw [hcons]
        exact .state fun hvalue => hstable (TapState.isStableByte_iff.mpr hvalue)
  | sdr | setSdrMasks | sdrInc | sdrTdoB | sdrTdoC | sdrTdoE | sir2 | comment | wait =>
    cases h
    refine .unsupported ?_
    intro o ho
    rw [Opcode.ofByte?_toByte] at ho
    cases ho
    rfl

theorem refused_of_read {c : Cursor} (h : read size c = .error fault) :
    Refused size c.position c.rest fault.error (Event.written fault.events)
      (Event.consumed fault.events) := by
  obtain ⟨position, rest⟩ := c
  cases rest with
  | nil =>
    rw [read_of_rest_nil rfl] at h
    cases h
    exact .cut .nothing
  | cons b rest =>
    cases ho : Opcode.ofByte? b with
    | none =>
      rw [read, expectByte_cons, ok_bind] at h
      obtain ⟨cause, hcause, hfault⟩ := exists_of_mapError_eq_error h
      simp only [ho] at hcause
      cases hcause
      rw [← hfault]
      simp only [begun, Event.written_append, Event.consumed_append, written_heading,
        consumed_heading]
      refine .unsupported ?_
      intro o hb
      rw [ho] at hb
      cases hb
    | some o =>
      obtain rfl := Opcode.toByte_of_ofByte? ho
      rw [read_opcode] at h
      obtain ⟨cause, hcause, hfault⟩ := exists_of_mapError_eq_error h
      rw [← hfault]
      simp only [begun, Event.written_append, Event.consumed_append, written_heading,
        consumed_heading]
      exact refused_of_readOperands hcause

end Sound

end SerialVector.Command
