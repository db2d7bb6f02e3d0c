/-
Asking for the end of a body.

A decoder that is asked for the end decodes what it holds and then takes a zero that is left
as a length, behind which it asks itself again.  `EndCall` keeps these calls.  They are few
because decoding leaves two bytes at most and every zero taken leaves fewer.  For the same
reason a decoder gives out bytes twice at most once the body has ended: first what was
certain, and then what a zero at the end made certain.
-/
import SerialVector.Body.Delivery
import SerialVector.Proofs.Body.Requests

namespace SerialVector.Body

namespace Decoder

/-- Asked for the end, a decoder asks itself on each of the decoders listed, every one from
within the one before, and gives `asked`. -/
inductive EndCall : Decoder → List Decoder → Decoder × Answer → Prop where
  | given {d next : Decoder} {bytes : List UInt8} (h : d.decode = (next, .ok (some bytes))) :
    EndCall d [] (next, .ok (some bytes))
  | failed {d next : Decoder} {error : BodyError} (h : d.decode = (next, .error error)) :
    EndCall d [] (next, .error error)
  | ended {d next : Decoder} (h : d.decode = (next, .ok none)) (hzero : next.takeZero? = none) :
    EndCall d [] (next, next.ending)
  | again {d next closed : Decoder} {calls : List Decoder} {asked : Decoder × Answer}
    (h : d.decode = (next, .ok none)) (hzero : next.takeZero? = some closed)
    (hclosed : EndCall closed calls asked) : EndCall d (closed :: calls) asked

variable {d next : Decoder} {calls others : List Decoder} {asked other : Decoder × Answer}
  {out bytes : List UInt8}

/-! ## Calls within calls -/

theorem exists_endCall (d : Decoder) : ∃ calls, EndCall d calls d.decodeEnd := by
  fun_induction decodeEnd d with
  | case1 d next h closed hzero ih =>
    obtain ⟨calls, hcalls⟩ := ih
    exact ⟨closed :: calls, .again h hzero hcalls⟩
  | case2 d next h hzero => exact ⟨[], .ended h hzero⟩
  | case3 d next bytes h => exact ⟨[], .given h⟩
  | case4 d next error h => exact ⟨[], .failed h⟩

theorem EndCall.unique (h : EndCall d calls asked) (h' : EndCall d others other) :
    others = calls ∧ other = asked := by
  induction h generalizing others with
  | given hdecode => cases h' <;> simp_all
  | failed hdecode => cases h' <;> simp_all
  | ended hdecode hzero => cases h' <;> simp_all
  | again hdecode hzero hclosed ih =>
    cases h' with
    | given hdecode' => simp_all
    | failed hdecode' => simp_all
    | ended hdecode' hzero' => simp_all
    | again hdecode' hzero' hclosed' =>
      rw [hdecode] at hdecode'
      cases hdecode'
      rw [hzero] at hzero'
      cases hzero'
      obtain ⟨rfl, rfl⟩ := ih hclosed'
      exact ⟨rfl, rfl⟩

theorem EndCall.eq_decodeEnd (h : EndCall d calls asked) : asked = d.decodeEnd := by
  obtain ⟨made, hmade⟩ := exists_endCall d
  exact (hmade.unique h).2

theorem EndCall.pairwise (h : EndCall d calls asked) :
    (d :: calls).Pairwise fun outer inner => inner.buffered < outer.buffered := by
  induction h with
  | given hdecode => exact List.pairwise_singleton _ _
  | failed hdecode => exact List.pairwise_singleton _ _
  | ended hdecode hzero => exact List.pairwise_singleton _ _
  | @again d next closed calls asked hdecode hzero hclosed ih =>
    have hlt : closed.buffered < d.buffered :=
      Nat.lt_of_lt_of_le (buffered_lt_of_takeZero? hzero) (buffered_le_of_decode hdecode)
    refine List.pairwise_cons.mpr ⟨?_, ih⟩
    intro inner hinner
    rcases List.mem_cons.mp hinner with rfl | hinner
    · exact hlt
    · exact Nat.lt_trans ((List.pairwise_cons.mp ih).1 inner hinner) hlt

theorem EndCall.length_le_buffered (h : EndCall d calls asked) : calls.length ≤ d.buffered := by
  induction h with
  | given hdecode => exact Nat.zero_le _
  | failed hdecode => exact Nat.zero_le _
  | ended hdecode hzero => exact Nat.zero_le _
  | again hdecode hzero hclosed ih =>
    have hzero' := buffered_lt_of_takeZero? hzero
    have hdecode' := buffered_le_of_decode hdecode
    rw [List.length_cons]
    omega

theorem EndCall.length_le_two (h : EndCall d calls asked) : calls.length ≤ 2 := by
  cases h with
  | given hdecode => exact Nat.zero_le 2
  | failed hdecode => exact Nat.zero_le 2
  | ended hdecode hzero => exact Nat.zero_le 2
  | again hdecode hzero hclosed =>
    have hzero' := buffered_lt_of_takeZero? hzero
    have hkept := (rest_of_decode hdecode).1
    have hinner := hclosed.length_le_buffered
    rw [List.length_cons]
    omega

/-! ## Bytes given out -/

/-- Bytes that come out were read, or stand for a run whose length was read. -/
theorem Moves.eq_nil_or_lt (h : Moves d out next) : out = [] ∨ next.buffered < d.buffered := by
  cases h with
  | header position rest => exact .inl rfl
  | chunkLength hlength => exact .inl rfl
  | chunk start length position hne hle hall =>
    have hpositive := List.length_pos_iff.mpr hne
    refine .inr ?_
    simp only [buffered, Cursor.remaining, List.length_append]
    omega
  | chunkEnd start length c => exact .inl rfl
  | runLength hrun => exact .inr (remaining_lt_of_settledLength? hrun)

theorem drain_eq_or_lt {given given' : Array UInt8} (h : d.drain given = (next, .ok given')) :
    given' = given ∨ next.buffered < d.buffered := by
  fun_induction drain given d with
  | case1 given d hstuck => cases h; exact .inl rfl
  | case2 given d error next' hfailed => cases h
  | case3 given d out next' hmoved ih =>
    have hle := buffered_le_of_step hmoved
    rcases ih h with rfl | hlt
    · rcases (moves_of_step hmoved).eq_nil_or_lt with rfl | hlt
      · exact .inl (Array.toList_inj.mp (by simp))
      · have hlater := drain_of_ok h
        refine .inr ?_
        rcases hlater with ⟨rfl, -⟩ | ⟨-, hkept⟩
        · exact hlt
        · exact Nat.lt_of_le_of_lt hkept hlt
    · exact .inr (Nat.lt_of_lt_of_le hlt hle)

theorem decode_item (h : d.decode = (next, .ok (some bytes))) :
    bytes ≠ [] ∧ next.step = .stuck ∧ next.buffered < d.buffered := by
  obtain ⟨given, hdrain, hgiven⟩ := exists_drain_of_decode h
  have hne : bytes ≠ [] := by
    rintro rfl
    rw [decode, hdrain] at h
    simp only [Except.map, Prod.mk.injEq, Except.ok.injEq, true_and] at h
    rw [Array.toList_eq_nil_iff.mp hgiven.symm] at h
    cases h
  refine ⟨hne, (decode_ok h).1, ?_⟩
  rcases drain_eq_or_lt hdrain with rfl | hlt
  · exact absurd hgiven hne
  · exact hlt

theorem ending_ne_item (d : Decoder) (bytes : List UInt8) : d.ending ≠ .ok (some bytes) := by
  unfold ending
  split
  · exact nofun
  · exact nofun
  · split <;> exact nofun
  · exact nofun

/-- What is given out at the end leaves a decoder stuck that holds less than before. -/
theorem decodeEnd_item (h : d.decodeEnd = (next, .ok (some bytes))) :
    bytes ≠ [] ∧ next.step = .stuck ∧ next.buffered < d.buffered := by
  fun_induction decodeEnd d with
  | case1 d last hdecode closed hzero ih =>
    obtain ⟨hne, hstuck, hlt⟩ := ih h
    have hzero' := buffered_lt_of_takeZero? hzero
    have hdecode' := buffered_le_of_decode hdecode
    exact ⟨hne, hstuck, by omega⟩
  | case2 d last hdecode hzero =>
    exact absurd (congrArg Prod.snd h) (ending_ne_item last bytes)
  | case3 d last bytes' hdecode =>
    cases h
    exact decode_item hdecode
  | case4 d last error hdecode => cases h

theorem decode_of_stuck (h : d.step = .stuck) : d.decode = (d, .ok none) := by
  rw [decode, drain_of_stuck #[] h]
  rfl

/-- From where a decoder is stuck, bytes come only when all that was left is taken. -/
theorem buffered_of_stuck (hstuck : d.step = .stuck)
    (h : d.decodeEnd = (next, .ok (some bytes))) : next.buffered = 0 := by
  have hdecode := decode_of_stuck hstuck
  have hkept := (rest_of_decode hdecode).1
  cases hzero : d.takeZero? with
  | none =>
    have hended := (EndCall.ended hdecode hzero).eq_decodeEnd
    rw [h] at hended
    exact absurd (congrArg Prod.snd hended) (ending_ne_item d bytes)
  | some closed =>
    obtain ⟨calls, hcalls⟩ := exists_endCall closed
    have hagain := (EndCall.again hdecode hzero hcalls).eq_decodeEnd
    rw [h] at hagain
    have hlt := (decodeEnd_item hagain).2.2
    have hclosed := buffered_lt_of_takeZero? hzero
    omega

/-! ## Requests for the end in a row -/

/-- Asked for the end again and again, a decoder gives out `most` items at most, none of them
empty, and then has nothing more or fails.  The loop that asks it makes these requests. -/
def DrainsIn (most : Nat) (d : Decoder) : Prop :=
  ∃ (items : List (List UInt8)) (failure : Option BodyError) (final : Decoder),
    items.length ≤ most ∧ (∀ item ∈ items, item ≠ []) ∧
      d.serve (List.replicate (items.length + 1) .decodeEnd) =
        (final, items.map (fun item => .ok (some item)) ++ [failure.elim (.ok none) .error]) ∧
      ∀ out, Delivery.exhaust decodeEnd potential_lt_of_decodeEnd out d =
        (final, ⟨out ++ items.flatten, failure⟩)

theorem exhaust_of_item (h : d.decodeEnd = (next, .ok (some bytes))) (given : Array UInt8) :
    Delivery.exhaust decodeEnd potential_lt_of_decodeEnd given d =
      Delivery.exhaust decodeEnd potential_lt_of_decodeEnd (given ++ bytes) next := by
  rw [Delivery.exhaust]
  split <;> simp_all

theorem exhaust_of_end {failure : Option BodyError}
    (h : d.decodeEnd = (next, failure.elim (.ok none) .error)) (given : Array UInt8) :
    Delivery.exhaust decodeEnd potential_lt_of_decodeEnd given d = (next, ⟨given, failure⟩) := by
  rw [Delivery.exhaust]
  cases failure <;> split <;> simp_all

theorem drainsIn_of_end (failure : Option BodyError) (most : Nat)
    (h : d.decodeEnd = (next, failure.elim (.ok none) .error)) : d.DrainsIn most := by
  refine ⟨[], failure, next, Nat.zero_le most, ?_, ?_, ?_⟩
  · exact fun item hitem => absurd hitem List.not_mem_nil
  · show (d.decodeEnd.1, [d.decodeEnd.2]) = _
    rw [h]
    rfl
  · intro out
    have hnone : out ++ ([] : List (List UInt8)).flatten = out := Array.toList_inj.mp (by simp)
    rw [exhaust_of_end h, hnone]

theorem drainsIn_of_item {most : Nat} (h : d.decodeEnd = (next, .ok (some bytes)))
    (hnext : next.DrainsIn most) : d.DrainsIn (most + 1) := by
  obtain ⟨items, failure, final, hmost, hitems, hserve, hexhaust⟩ := hnext
  refine ⟨bytes :: items, failure, final, Nat.succ_le_succ hmost, ?_, ?_, ?_⟩
  · exact List.forall_mem_cons.mpr ⟨(decodeEnd_item h).1, hitems⟩
  · rw [List.length_cons, List.replicate_succ, serve, respond, h]
    simp only [hserve]
    rfl
  · intro out
    have hassoc : out ++ bytes ++ items.flatten = out ++ (bytes :: items).flatten :=
      Array.toList_inj.mp (by simp)
    rw [exhaust_of_item h, hexhaust, hassoc]

/-- Either nothing comes out, or something does and a decoder is left that drains sooner. -/
theorem drainsIn_of_next {most : Nat}
    (hnext : ∀ {next bytes}, d.decodeEnd = (next, .ok (some bytes)) → next.DrainsIn most) :
    d.DrainsIn (most + 1) := by
  match h : d.decodeEnd with
  | (next, .ok none) => exact drainsIn_of_end none _ h
  | (next, .ok (some bytes)) => exact drainsIn_of_item h (hnext h)
  | (next, .error error) => exact drainsIn_of_end (some error) _ h

theorem drainsIn_of_empty (h : d.buffered = 0) (most : Nat) : d.DrainsIn most := by
  match hend : d.decodeEnd with
  | (next, .ok none) => exact drainsIn_of_end none _ hend
  | (next, .ok (some bytes)) =>
    have hlt := (decodeEnd_item hend).2.2
    omega
  | (next, .error error) => exact drainsIn_of_end (some error) _ hend

theorem drainsIn_two (d : Decoder) : d.DrainsIn 2 :=
  drainsIn_of_next fun h => drainsIn_of_next fun h' =>
    drainsIn_of_empty (buffered_of_stuck (decodeEnd_item h).2.1 h') 0

/-! ## A body that has ended -/

theorem phase_of_ending (h : d.ending = .ok none) :
    d.phase = .chunkLength ∧ d.cursor.rest = [] := by
  unfold ending at h
  split at h
  · cases h
  · cases h
  · rename_i hphase
    split at h
    · rename_i hempty
      exact ⟨hphase, List.isEmpty_iff.mp hempty⟩
    · cases h
  · cases h

theorem idle_of_decodeEnd (h : d.decodeEnd = (next, .ok none)) :
    next.phase = .chunkLength ∧ next.cursor.rest = [] := by
  fun_induction decodeEnd d with
  | case1 d last hdecode closed hzero ih => exact ih h
  | case2 d last hdecode hzero =>
    obtain ⟨rfl, hended⟩ := Prod.mk.inj h
    exact phase_of_ending hended
  | case3 d last bytes' hdecode => cases h
  | case4 d last error hdecode => cases h

theorem serve_of_idle (hphase : d.phase = .chunkLength) (hrest : d.cursor.rest = [])
    {requests : List Request} (h : ∀ r ∈ requests, r = .decode ∨ r = .decodeEnd) :
    d.serve requests = (d, requests.map fun _ => .ok none) := by
  obtain ⟨phase, position, rest⟩ := d
  simp only at hphase hrest
  subst hphase hrest
  have hdecode := decode_of_stuck (d := ⟨.chunkLength, ⟨position, []⟩⟩) rfl
  have hended := (EndCall.ended hdecode rfl).eq_decodeEnd
  induction requests with
  | nil => rfl
  | cons r requests ih =>
    obtain ⟨hr, hrequests⟩ := List.forall_mem_cons.mp h
    have hrest := ih hrequests
    rcases hr with rfl | rfl
    · rw [serve, respond, hdecode]
      simp only [hrest]
      rfl
    · rw [serve, respond, ← hended]
      simp only [hrest]
      rfl

end Decoder

open Decoder in
/-- Asking for the end is over soon.  One call makes two further ones at most, each of a
decoder that holds less.  Calls in a row give out two items at most, none of them empty, and
a third or earlier one has nothing more or fails.  It has nothing more only where a chunk is
due and no byte is left, and then every later call has nothing and changes nothing. -/
theorem draining_ends_soon (d : Decoder) :
    (∃ calls, (∀ others asked, EndCall d others asked ↔ others = calls ∧ asked = d.decodeEnd) ∧
        calls.length ≤ 2 ∧
        (d :: calls).Pairwise fun outer inner => inner.buffered < outer.buffered) ∧
      d.DrainsIn 2 ∧
      ∀ next, d.decodeEnd = (next, .ok none) →
        next.phase = .chunkLength ∧ next.cursor.rest = [] ∧
          ∀ requests : List Request, (∀ r ∈ requests, r = .decode ∨ r = .decodeEnd) →
            next.serve requests = (next, requests.map fun _ => .ok none) := by
  refine ⟨?_, drainsIn_two d, ?_⟩
  · obtain ⟨calls, hcalls⟩ := exists_endCall d
    refine ⟨calls, fun others asked => ⟨hcalls.unique, ?_⟩, hcalls.length_le_two,
      hcalls.pairwise⟩
    rintro ⟨rfl, rfl⟩
    exact hcalls
  · intro next h
    obtain ⟨hphase, hrest⟩ := idle_of_decodeEnd h
    exact ⟨hphase, hrest, fun requests => serve_of_idle hphase hrest⟩

-- Only at the end is the zero before the last byte known to be a length of its own.
example :
    (Decoder.start.feed [0, 1, 7, 3, 0, 4]).serve [.decodeEnd, .decodeEnd, .decodeEnd] =
      (⟨.chunkLength, ⟨6, []⟩⟩, [.ok (some [7, 0, 0, 0]), .ok (some [0, 0, 0, 0]), .ok none]) := by
  decide +kernel

end SerialVector.Body
