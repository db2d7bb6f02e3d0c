/-
The outlook of a decoder.

The outlook is what a reader that has the whole body makes of the bytes that a decoder
has not given out.  A move of the decoder turns part of it into output and changes
nothing else, whatever pieces are still to come.
-/
import SerialVector.Body.Decoder.Decode
import SerialVector.Proofs.Body.Contents
import SerialVector.Proofs.Body.Moves

namespace SerialVector.Body

structure Reading where
  bytes : List UInt8
  error : Option BodyError
  deriving DecidableEq

namespace Reading

def after (given : List UInt8) (r : Reading) : Reading := ⟨given ++ r.bytes, r.error⟩

@[simp] theorem after_nil (r : Reading) : r.after [] = r := rfl

theorem after_after (given later : List UInt8) (r : Reading) :
    (r.after later).after given = r.after (given ++ later) := by
  simp [after]

def ofContents (c : Contents) : Reading := ⟨c.bytes, c.error⟩

/-- What is read behind the last byte of a chunk. -/
def behindChunk (c : Cursor) : Reading :=
  match readLength? c with
  | none => ⟨[], some (.truncatedLength c.position)⟩
  | some (run, d) => (ofContents (Contents.readFrom [] d)).after (List.replicate run 0)

/-- What is read inside a chunk of `length` bytes of which some are missing. -/
def insideChunk (start length missing : Nat) (c : Cursor) : Reading :=
  match c.take? missing with
  | none => ⟨c.rest, some (.truncatedChunk start length)⟩
  | some (chunk, d) => (behindChunk d).after chunk

theorem ofContents_of_readLength? {c d : Cursor} {length : Nat}
    (h : readLength? c = some (length, d)) :
    ofContents (Contents.readFrom [] c) = insideChunk d.position length length d := by
  unfold insideChunk
  cases hd : d.take? length with
  | none => rw [Contents.readFrom_of_cutChunk h hd]; rfl
  | some p =>
    obtain ⟨chunk, e⟩ := p
    show _ = (behindChunk e).after chunk
    unfold behindChunk
    cases he : readLength? e with
    | none =>
      rw [Contents.readFrom_of_missingRun h hd he]
      simp [ofContents, Contents.bytes, Segment.join, after]
    | some q =>
      obtain ⟨run, f⟩ := q
      rw [Contents.readFrom_of_segment h hd he, ofContents, Contents.bytes_of_segment]
      simp [ofContents, after, Segment.bytes]

theorem insideChunk_zero (start length : Nat) (c : Cursor) :
    insideChunk start length 0 c = behindChunk c := by
  have htake : c.take? 0 = some ([], c) := Cursor.take?_eq_some_iff.mpr ⟨rfl, rfl, rfl⟩
  rw [insideChunk, htake]
  rfl

theorem insideChunk_append (start length position : Nat) {missing : Nat} {taken : List UInt8}
    (rest : List UInt8) (h : taken.length ≤ missing) :
    insideChunk start length missing ⟨position, taken ++ rest⟩ =
      (insideChunk start length (missing - taken.length)
        ⟨position + taken.length, rest⟩).after taken := by
  unfold insideChunk
  cases htake : Cursor.take? (missing - taken.length) ⟨position + taken.length, rest⟩ with
  | none =>
    have hshort := Cursor.take?_eq_none_iff.mp htake
    have hnone : Cursor.take? missing ⟨position, taken ++ rest⟩ = none := by
      rw [Cursor.take?_eq_none_iff]
      simp only [Cursor.remaining, List.length_append] at hshort ⊢
      omega
    rw [hnone]
    rfl
  | some p =>
    obtain ⟨chunk, d⟩ := p
    obtain ⟨hrest, hlength, hposition⟩ := Cursor.take?_eq_some_iff.mp htake
    have hsome : Cursor.take? missing ⟨position, taken ++ rest⟩ = some (taken ++ chunk, d) := by
      rw [Cursor.take?_eq_some_iff]
      refine ⟨?_, ?_, ?_⟩
      · show taken ++ rest = _
        rw [show rest = chunk ++ d.rest from hrest, List.append_assoc]
      · rw [List.length_append]
        omega
      · rw [hposition]
        show position + taken.length + (missing - taken.length) = position + missing
        omega
    rw [hsome]
    exact (after_after taken chunk (behindChunk d)).symm

end Reading

namespace Decoder

open Reading

variable {d next : Decoder} {out : List UInt8} {error : BodyError}

def outlook (d : Decoder) : Reading :=
  match d.phase with
  | .header =>
    match d.cursor.rest with
    | [] => ⟨[], some .missingHeader⟩
    | b :: rest =>
      if b = Body.header then ofContents (Contents.readFrom [] ⟨d.cursor.position + 1, rest⟩)
      else ⟨[], some (.unsupportedHeader b)⟩
  | .chunkLength => ofContents (Contents.readFrom [] d.cursor)
  | .chunk start length missing => insideChunk start length missing d.cursor
  | .runLength => behindChunk d.cursor

@[simp] theorem feed_nil (d : Decoder) : d.feed [] = d := by
  simp [feed]

theorem feed_feed (d : Decoder) (piece later : List UInt8) :
    (d.feed piece).feed later = d.feed (piece ++ later) := by
  simp [feed]

/-- A new decoder that is fed a body has all of it before it. -/
theorem outlook_start_feed (body : List UInt8) :
    (start.feed body).outlook = ofContents (Contents.read body) := by
  cases body with
  | nil => rfl
  | cons b rest =>
    show (if b = Body.header then _ else _) = _
    rw [Contents.read]
    split <;> rfl

/-! ## Moves -/

/-- A move turns part of the outlook into output. -/
theorem outlook_feed_of_moved (h : d.step = .moved out next) (more : List UInt8) :
    (d.feed more).outlook = (next.feed more).outlook.after out := by
  cases moves_of_step h with
  | header position rest => rfl
  | chunkLength hlength =>
    exact ofContents_of_readLength? (readLength?_of_settledLength? hlength more)
  | chunk start length position hne hle hall =>
    show insideChunk start length _ ⟨position, (out ++ _) ++ more⟩ = _
    rw [List.append_assoc]
    exact insideChunk_append start length position _ hle
  | chunkEnd start length c => exact insideChunk_zero start length _
  | runLength hrun =>
    show behindChunk ⟨_, _ ++ more⟩ = _
    rw [behindChunk, readLength?_of_settledLength? hrun more]
    rfl

theorem outlook_feed_of_failed (h : d.step = .failed error next) (more : List UInt8) :
    (d.feed more).outlook = ⟨[], some error⟩ := by
  obtain ⟨position, b, rest, hb, rfl, rfl, -⟩ := failed_cases h
  exact if_neg hb

/-! ## Asking for bytes -/

theorem step_of_drain_ok {given given' : Array UInt8} (h : d.drain given = (next, .ok given')) :
    next.step = .stuck := by
  fun_induction drain given d with
  | case1 given d hstuck => cases h; exact hstuck
  | case2 given d error next' hfailed => cases h
  | case3 given d bytes next' hmoved ih => exact ih h

/-- An error comes first or not at all, so that nothing is lost with it. -/
theorem step_of_drain_error {given : Array UInt8} (h : d.drain given = (next, .error error)) :
    d.step = .failed error next := by
  fun_induction drain given d with
  | case1 given d hstuck => cases h
  | case2 given d error' next' hfailed => cases h; exact hfailed
  | case3 given d bytes next' hmoved ih =>
    obtain ⟨_, _, _, _, rfl, _⟩ := failed_cases (ih h)
    exact absurd rfl (phase_of_moves (moves_of_step hmoved))

theorem outlook_feed_of_drain {given given' : Array UInt8}
    (h : d.drain given = (next, .ok given')) (more : List UInt8) :
    (d.feed more).outlook.after given.toList = (next.feed more).outlook.after given'.toList := by
  fun_induction drain given d with
  | case1 given d hstuck => cases h; rfl
  | case2 given d error next' hfailed => cases h
  | case3 given d bytes next' hmoved ih =>
    rw [outlook_feed_of_moved hmoved more, after_after, ← ih h, Array.toList_appendList]

theorem exists_drain_of_decode {item : Option (List UInt8)} (h : d.decode = (next, .ok item)) :
    ∃ given, d.drain #[] = (next, .ok given) ∧ item.getD [] = given.toList := by
  unfold decode at h
  split at h
  rename_i next' result hdrain
  cases result with
  | error error => cases h
  | ok given =>
    simp only [Except.map, Prod.mk.injEq, Except.ok.injEq] at h
    obtain ⟨rfl, hitem⟩ := h
    refine ⟨given, hdrain, ?_⟩
    rw [← hitem]
    split
    · rename_i hempty
      rw [Array.isEmpty_iff.mp hempty]
      rfl
    · rfl

theorem step_of_decode_error (h : d.decode = (next, .error error)) :
    d.step = .failed error next := by
  unfold decode at h
  split at h
  rename_i next' result hdrain
  cases result with
  | ok given => cases h
  | error error' =>
    cases h
    exact step_of_drain_error hdrain

/-- What was decoded is gone from the outlook, and the decoder is stuck. -/
theorem decode_ok {item : Option (List UInt8)} (h : d.decode = (next, .ok item)) :
    next.step = .stuck ∧
      ∀ more, (d.feed more).outlook = (next.feed more).outlook.after (item.getD []) := by
  obtain ⟨given, hdrain, hgiven⟩ := exists_drain_of_decode h
  refine ⟨step_of_drain_ok hdrain, fun more => ?_⟩
  rw [hgiven]
  exact outlook_feed_of_drain hdrain more

theorem outlook_of_decode {item : Option (List UInt8)} (h : d.decode = (next, .ok item)) :
    d.outlook = next.outlook.after (item.getD []) := by
  have hgiven := (decode_ok h).2 []
  rwa [feed_nil, feed_nil] at hgiven

theorem decode_error (h : d.decode = (next, .error error)) (more : List UInt8) :
    (d.feed more).outlook = ⟨[], some error⟩ :=
  outlook_feed_of_failed (step_of_decode_error h) more

/-! ## The end of the body -/

/-- A zero that a decoder is stuck at is a length of its own if nothing follows. -/
theorem outlook_of_takeZero? (hstuck : d.step = .stuck) (h : d.takeZero? = some next) :
    d.outlook = next.outlook := by
  obtain ⟨phase, position, rest⟩ := d
  rcases stuck_cases hstuck with ⟨rfl, -⟩ | ⟨rfl | rfl, rfl | ⟨rest, rfl, hshort⟩⟩
  · cases phase <;> cases h
  · cases h
  · cases h
    exact ofContents_of_readLength? (readLength?_zero_of_short hshort position)
  · cases h
  · cases h
    show behindChunk ⟨position, 0 :: rest⟩ = _
    rw [behindChunk, readLength?_zero_of_short hshort]
    rfl

theorem outlook_of_takeZero?_eq_none (hstuck : d.step = .stuck) (h : d.takeZero? = none) :
    d.ending = d.outlook.error.elim (.ok none) .error ∧ d.outlook.bytes = [] := by
  obtain ⟨phase, position, rest⟩ := d
  rcases stuck_cases hstuck with
    ⟨rfl, rfl | ⟨start, length, missing, rfl⟩⟩ | ⟨rfl | rfl, rfl | ⟨rest, rfl, hshort⟩⟩
  · exact ⟨rfl, rfl⟩
  · exact ⟨rfl, rfl⟩
  · have hend : readLength? ⟨position, []⟩ = none := rfl
    simp only [outlook, Contents.readFrom_of_end hend]
    exact ⟨rfl, rfl⟩
  · cases h
  · exact ⟨rfl, rfl⟩
  · cases h

/-- What was decoded at the end is gone from the outlook.  Nothing and an error are the
whole of it. -/
theorem outlook_of_decodeEnd (d : Decoder) :
    d.outlook =
      match d.decodeEnd with
      | (next, .ok (some bytes)) => next.outlook.after bytes
      | (_, .ok none) => ⟨[], none⟩
      | (_, .error error) => ⟨[], some error⟩ := by
  fun_induction decodeEnd d with
  | case1 d next hdecode closed hzero ih =>
    have hstuck := (decode_ok hdecode).1
    rw [outlook_of_decode hdecode, Option.getD_none, after_nil,
      outlook_of_takeZero? hstuck hzero]
    exact ih
  | case2 d next hdecode hzero =>
    have hstuck := (decode_ok hdecode).1
    obtain ⟨hending, hbytes⟩ := outlook_of_takeZero?_eq_none hstuck hzero
    rw [outlook_of_decode hdecode, Option.getD_none, after_nil, hending]
    generalize next.outlook = rest at hbytes
    obtain ⟨bytes, error⟩ := rest
    subst hbytes
    cases error <;> rfl
  | case3 d next bytes hdecode => exact outlook_of_decode hdecode
  | case4 d next error hdecode =>
    have herror := decode_error hdecode []
    rwa [feed_nil] at herror

end Decoder
end SerialVector.Body
