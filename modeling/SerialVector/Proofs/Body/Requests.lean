/-
A decoder under any requests.

Pieces may be fed and bytes asked for in any order, behind errors as well, and the end may
be asked for while pieces still follow.  Whatever the order, every byte that was fed is
counted once: it was understood, it is kept back, or it was refused as a header.  While the
end is not asked for, how the bytes were cut and when they were asked for leaves no trace
once a decoder is asked again, because a move that is made early is made later as well.
-/
import SerialVector.Proofs.Body.Outlook

namespace SerialVector.Body

/-- What may be done with a decoder. -/
inductive Request where
  | feed (piece : List UInt8)
  | decode
  | decodeEnd
  deriving DecidableEq

namespace Request

def piece : Request → List UInt8
  | feed piece => piece
  | decode | decodeEnd => []

/-- The bytes that some requests feed. -/
def fed (requests : List Request) : List UInt8 := requests.flatMap piece

@[simp] theorem fed_cons (r : Request) (requests : List Request) :
    fed (r :: requests) = r.piece ++ fed requests := rfl

end Request

namespace Answer

/-- The bytes that an answer gives out. -/
def bytes : Answer → List UInt8
  | .ok item => item.getD []
  | .error _ => []

/-- Whether a byte was taken away because it is no header. -/
def refusesHeader : Answer → Bool
  | .error (.unsupportedHeader _) => true
  | _ => false

end Answer

/-! ## Lengths -/

theorem reach_of_readLength? {c e : Cursor} {n : Nat} (h : readLength? c = some (n, e)) :
    n ≤ maxLength ∧ e.position + e.remaining = c.position + c.remaining := by
  unfold maxLength
  unfold readLength? at h
  split at h
  · cases h
  · rename_i hi lo rest hrest
    cases h
    have hhi := hi.toNat_lt
    have hlo := lo.toNat_lt
    rw [decode_pair, Cursor.remaining, Cursor.remaining, hrest]
    simp only [List.length_cons]
    omega
  · rename_i b rest _ hrest
    cases h
    have hb := b.toNat_lt
    rw [Cursor.remaining, Cursor.remaining, hrest]
    simp only [List.length_cons]
    omega

namespace Decoder

variable {d next : Decoder} {out : List UInt8} {error : BodyError}

theorem readLength?_of_settled {c e : Cursor} {n : Nat} (h : settledLength? c = some (n, e)) :
    readLength? c = some (n, e) := by
  have hread := readLength?_of_settledLength? h []
  rwa [List.append_nil, List.append_nil] at hread

/-- A settled length stays what it is when more follows. -/
theorem settledLength?_append {c e : Cursor} {n : Nat} (h : settledLength? c = some (n, e))
    (more : List UInt8) :
    settledLength? ⟨c.position, c.rest ++ more⟩ = some (n, ⟨e.position, e.rest ++ more⟩) := by
  have hread := readLength?_of_settledLength? h more
  obtain ⟨position, rest⟩ := c
  have hopen : ∀ tail, rest ++ more = 0 :: tail → 2 ≤ tail.length := by
    intro tail hrest
    match rest with
    | [] => cases h
    | b :: front =>
      obtain ⟨rfl, rfl⟩ := List.cons.inj hrest
      match front with
      | [] => cases h
      | [_] => cases h
      | _ :: _ :: _ => simp
  unfold settledLength?
  split
  · rename_i hrest
    exact absurd (hopen [] hrest) (by decide)
  · rename_i b hrest
    exact absurd (hopen [b] hrest) (by simp)
  · exact hread

/-! ## Where a decoder is -/

/-- How far the bytes reach that a decoder was given. -/
def reach (d : Decoder) : Nat := d.cursor.position + d.buffered

/-- A decoder inside a chunk has given out what stands between it and the beginning of the
chunk. -/
def Placed (d : Decoder) : Prop :=
  ∀ start length missing, d.phase = .chunk start length missing →
    missing ≤ length ∧ length ≤ maxLength ∧ start + (length - missing) = d.cursor.position

theorem reach_of_moves (h : Moves d out next) : next.reach = d.reach := by
  cases h with
  | header position rest =>
    simp only [reach, buffered, Cursor.remaining, List.length_cons]
    omega
  | chunkLength hlength => exact (reach_of_readLength? (readLength?_of_settled hlength)).2
  | chunk start length position hne hle hall =>
    simp only [reach, buffered, Cursor.remaining, List.length_append]
    omega
  | chunkEnd start length c => rfl
  | runLength hrun => exact (reach_of_readLength? (readLength?_of_settled hrun)).2

theorem placed_of_moves (h : Moves d out next) (hd : d.Placed) : next.Placed := by
  intro start length missing hphase
  cases h with
  | header position rest => cases hphase
  | chunkLength hlength =>
    cases hphase
    have hle := (reach_of_readLength? (readLength?_of_settled hlength)).1
    exact ⟨Nat.le_refl _, hle, by rw [Nat.sub_self]; rfl⟩
  | chunk start length position hne hle hall =>
    cases hphase
    obtain ⟨hmissing, hlength, hposition⟩ := hd _ _ _ rfl
    simp only at hposition
    refine ⟨by omega, hlength, ?_⟩
    show start + _ = position + out.length
    omega
  | chunkEnd start length c => cases hphase
  | runLength hrun => cases hphase

theorem reach_of_failed (h : d.step = .failed error next) : next.reach + 1 = d.reach := by
  obtain ⟨position, b, rest, -, rfl, -, rfl⟩ := failed_cases h
  simp only [reach, buffered, Cursor.remaining, List.length_cons]
  omega

/-! ## What a request keeps -/

/-- Taking a zero at the end is no move, but it leads from one phase to the next as well. -/
theorem takeZero?_cases (h : d.takeZero? = some next) :
    ∃ position rest,
      d = ⟨.chunkLength, ⟨position, 0 :: rest⟩⟩ ∧ next = openChunk 0 ⟨position + 1, rest⟩ ∨
      d = ⟨.runLength, ⟨position, 0 :: rest⟩⟩ ∧ next = ⟨.chunkLength, ⟨position + 1, rest⟩⟩ := by
  obtain ⟨phase, position, rest⟩ := d
  unfold takeZero? at h
  split at h
  · rename_i tail hphase hrest
    simp only at hphase hrest
    subst hphase hrest
    exact ⟨position, tail, .inl ⟨rfl, (Option.some.inj h).symm⟩⟩
  · rename_i tail hphase hrest
    simp only at hphase hrest
    subst hphase hrest
    exact ⟨position, tail, .inr ⟨rfl, (Option.some.inj h).symm⟩⟩
  · cases h

theorem reach_of_takeZero? (h : d.takeZero? = some next) : next.reach = d.reach := by
  obtain ⟨position, rest, ⟨rfl, rfl⟩ | ⟨rfl, rfl⟩⟩ := takeZero?_cases h
  · simp only [reach, buffered, openChunk, Cursor.remaining, List.length_cons]
    omega
  · simp only [reach, buffered, Cursor.remaining, List.length_cons]
    omega

theorem placed_of_takeZero? (h : d.takeZero? = some next) : next.Placed := by
  intro start length missing hphase
  obtain ⟨position, rest, ⟨-, rfl⟩ | ⟨-, rfl⟩⟩ := takeZero?_cases h
  · cases hphase
    exact ⟨Nat.le_refl _, Nat.zero_le _, rfl⟩
  · cases hphase

theorem refusesHeader_ending (d : Decoder) : Answer.refusesHeader d.ending = false := by
  unfold ending
  split
  · rfl
  · rfl
  · split <;> rfl
  · rfl

/-- `P` holds when a decoder was asked, but for the byte that it may have refused last. -/
def HoldsAfter (P : Decoder → Prop) (asked : Decoder × Answer) : Prop :=
  P asked.1 ∧ Answer.refusesHeader asked.2 = false ∨
    ∃ last error, P last ∧ last.step = .failed error asked.1 ∧ asked.2 = .error error

section Asking

variable {P : Decoder → Prop} (hmoves : ∀ {d out next}, Moves d out next → P d → P next)
include hmoves

theorem holds_of_drain {given given' : Array UInt8} (h : d.drain given = (next, .ok given'))
    (hd : P d) : P next := by
  fun_induction drain given d with
  | case1 given d hstuck => cases h; exact hd
  | case2 given d error next' hfailed => cases h
  | case3 given d bytes next' hmoved ih => exact ih h (hmoves (moves_of_step hmoved) hd)

theorem holdsAfter_decode (hd : P d) : HoldsAfter P d.decode := by
  cases hdecode : d.decode with
  | mk next answer =>
    cases answer with
    | ok item =>
      obtain ⟨given, hdrain, -⟩ := exists_drain_of_decode hdecode
      exact .inl ⟨holds_of_drain hmoves hdrain hd, rfl⟩
    | error error => exact .inr ⟨d, error, hd, step_of_decode_error hdecode, rfl⟩

theorem holdsAfter_decodeEnd (hzero : ∀ {d next}, takeZero? d = some next → P d → P next)
    (hd : P d) : HoldsAfter P d.decodeEnd := by
  fun_induction decodeEnd d with
  | case1 d next hdecode closed htaken ih =>
    obtain ⟨given, hdrain, -⟩ := exists_drain_of_decode hdecode
    exact ih (hzero htaken (holds_of_drain hmoves hdrain hd))
  | case2 d next hdecode htaken =>
    obtain ⟨given, hdrain, -⟩ := exists_drain_of_decode hdecode
    exact .inl ⟨holds_of_drain hmoves hdrain hd, refusesHeader_ending next⟩
  | case3 d next bytes hdecode =>
    obtain ⟨given, hdrain, -⟩ := exists_drain_of_decode hdecode
    exact .inl ⟨holds_of_drain hmoves hdrain hd, rfl⟩
  | case4 d next error hdecode =>
    exact .inr ⟨d, error, hd, step_of_decode_error hdecode, rfl⟩

end Asking

theorem reach_of_holdsAfter {total : Nat} {asked : Decoder × Answer}
    (h : HoldsAfter (fun d => d.reach = total) asked) :
    asked.1.reach + [asked.2].countP Answer.refusesHeader = total := by
  obtain ⟨next, answer⟩ := asked
  rcases h with ⟨hreach, hanswer⟩ | ⟨last, error, hreach, hfailed, hanswer⟩
  · rw [List.countP_singleton, hanswer]
    exact hreach
  · have hlast := reach_of_failed hfailed
    obtain ⟨_, b, _, -, -, rfl, -⟩ := failed_cases hfailed
    simp only at hanswer hlast ⊢
    subst hanswer
    rw [List.countP_singleton]
    exact hlast.trans hreach

theorem placed_of_holdsAfter {asked : Decoder × Answer} (h : HoldsAfter Placed asked) :
    asked.1.Placed := by
  rcases h with ⟨hplaced, -⟩ | ⟨last, error, -, hfailed, -⟩
  · exact hplaced
  · obtain ⟨_, _, _, -, -, -, hnext⟩ := failed_cases hfailed
    intro start length missing hphase
    rw [hnext] at hphase
    cases hphase

/-! ## Requests in a row -/

def respond (d : Decoder) : Request → Decoder × List Answer
  | .feed piece => (d.feed piece, [])
  | .decode => (d.decode.1, [d.decode.2])
  | .decodeEnd => (d.decodeEnd.1, [d.decodeEnd.2])

/-- The decoder that some requests leave, errors or not, and all it answered. -/
def serve (d : Decoder) : List Request → Decoder × List Answer
  | [] => (d, [])
  | r :: requests =>
    let served := (d.respond r).1.serve requests
    (served.1, (d.respond r).2 ++ served.2)

theorem reach_respond (d : Decoder) (r : Request) :
    (d.respond r).1.reach + (d.respond r).2.countP Answer.refusesHeader =
      d.reach + r.piece.length := by
  cases r with
  | feed piece =>
    simp only [respond, reach, buffered, feed, Cursor.remaining, List.length_append, Request.piece,
      List.countP_nil]
    omega
  | decode =>
    apply reach_of_holdsAfter
    exact holdsAfter_decode (fun h hd => (reach_of_moves h).trans hd) rfl
  | decodeEnd =>
    apply reach_of_holdsAfter
    exact holdsAfter_decodeEnd (fun h hd => (reach_of_moves h).trans hd)
      (fun h hd => (reach_of_takeZero? h).trans hd) rfl

theorem placed_respond (hd : d.Placed) (r : Request) : (d.respond r).1.Placed := by
  cases r with
  | feed piece => exact hd
  | decode => exact placed_of_holdsAfter (holdsAfter_decode placed_of_moves hd)
  | decodeEnd =>
    exact placed_of_holdsAfter
      (holdsAfter_decodeEnd placed_of_moves (fun h _ => placed_of_takeZero? h) hd)

/-- Every byte that was fed is accounted for. -/
theorem reach_serve (d : Decoder) (requests : List Request) :
    (d.serve requests).1.reach + (d.serve requests).2.countP Answer.refusesHeader =
      d.reach + (Request.fed requests).length := by
  induction requests generalizing d with
  | nil => rfl
  | cons r requests ih =>
    have hfirst := reach_respond d r
    have hrest := ih (d.respond r).1
    simp only [serve, List.countP_append, Request.fed_cons, List.length_append]
    omega

theorem placed_serve (hd : d.Placed) (requests : List Request) :
    (d.serve requests).1.Placed := by
  induction requests generalizing d with
  | nil => exact hd
  | cons r requests ih => exact ih (placed_respond hd r)

theorem serve_append (d : Decoder) (first second : List Request) :
    d.serve (first ++ second) =
      (((d.serve first).1.serve second).1,
        (d.serve first).2 ++ ((d.serve first).1.serve second).2) := by
  induction first generalizing d with
  | nil => rfl
  | cons r first ih =>
    rw [List.cons_append, serve, ih, serve, List.append_assoc]

/-- What a decoder keeps back is too short to be told from the front of a long length. -/
theorem rest_of_decode {item : Option (List UInt8)} (h : d.decode = (next, .ok item)) :
    next.buffered ≤ 2 ∧ ∀ b rest, next.cursor.rest = b :: rest →
      (next.phase = .chunkLength ∨ next.phase = .runLength) ∧ b = 0 := by
  have hnothing (hnil : next.cursor.rest = []) :
      next.buffered ≤ 2 ∧ ∀ b rest, next.cursor.rest = b :: rest →
        (next.phase = .chunkLength ∨ next.phase = .runLength) ∧ b = 0 := by
    rw [buffered, Cursor.remaining, hnil]
    exact ⟨Nat.zero_le 2, fun b rest hcons => by cases hcons⟩
  rcases stuck_cases (decode_ok h).1 with ⟨hnil, -⟩ | ⟨hphase, hnil | ⟨tail, htail, hshort⟩⟩
  · exact hnothing hnil
  · exact hnothing hnil
  · rw [buffered, Cursor.remaining, htail, List.length_cons]
    refine ⟨by omega, fun b rest hcons => ⟨hphase, ?_⟩⟩
    exact (List.cons.inj hcons).1.symm

/-! ## Moves made early and late -/

theorem drain_of_moved (given : Array UInt8) (h : d.step = .moved out next) :
    d.drain given = next.drain (given ++ out) := by
  rw [drain]
  split <;> simp_all

theorem drain_of_stuck (given : Array UInt8) (h : d.step = .stuck) :
    d.drain given = (d, .ok given) := by
  rw [drain]
  split <;> simp_all

theorem drain_of_failed (given : Array UInt8) (h : d.step = .failed error next) :
    d.drain given = (next, .error error) := by
  rw [drain]
  split <;> simp_all

theorem step_chunk (start length position : Nat) {missing : Nat} {bytes : List UInt8}
    (hmissing : 0 < missing) (hbytes : bytes ≠ []) :
    step ⟨.chunk start length missing, ⟨position, bytes⟩⟩ =
      .moved (bytes.take missing)
        ⟨.chunk start length (missing - (bytes.take missing).length),
          ⟨position + (bytes.take missing).length, bytes.drop missing⟩⟩ := by
  cases missing with
  | zero => exact absurd hmissing (Nat.lt_irrefl 0)
  | succ missing =>
    cases bytes with
    | nil => exact absurd rfl hbytes
    | cons b bytes => rfl

/-- The bytes of a chunk come out the same whether they arrive at once or not. -/
theorem drain_chunk_append (start length position : Nat) {missing : Nat} {taken : List UInt8}
    (hne : taken ≠ []) (hle : taken.length ≤ missing) (rest : List UInt8)
    (given : Array UInt8) :
    drain given ⟨.chunk start length missing, ⟨position, taken ++ rest⟩⟩ =
      drain (given ++ taken)
        ⟨.chunk start length (missing - taken.length), ⟨position + taken.length, rest⟩⟩ := by
  have hpositive := List.length_pos_iff.mpr hne
  have htake : (taken ++ rest).take missing = taken ++ rest.take (missing - taken.length) := by
    rw [List.take_append, List.take_of_length_le hle]
  have hdrop : (taken ++ rest).drop missing = rest.drop (missing - taken.length) := by
    rw [List.drop_append, List.drop_of_length_le hle, List.nil_append]
  have hall := step_chunk start length position (by omega : 0 < missing)
    (List.append_ne_nil_of_left_ne_nil hne rest)
  rw [htake, hdrop] at hall
  rw [drain_of_moved given hall]
  by_cases hmore : rest = [] ∨ missing = taken.length
  · have hnone : rest.take (missing - taken.length) = [] := by
      rcases hmore with rfl | heq
      · exact List.take_nil
      · rw [heq, Nat.sub_self, List.take_zero]
    have hwhole : rest.drop (missing - taken.length) = rest := by
      have hsplit := List.take_append_drop (missing - taken.length) rest
      rwa [hnone] at hsplit
    rw [hnone, hwhole, List.append_nil]
  · have hrest : rest ≠ [] := fun hnil => hmore (.inl hnil)
    have hopen : 0 < missing - taken.length := by omega
    have hlater := step_chunk start length (position + taken.length) hopen hrest
    rw [drain_of_moved (given ++ taken) hlater]
    have hgiven : given ++ (taken ++ rest.take (missing - taken.length)) =
        given ++ taken ++ rest.take (missing - taken.length) :=
      Array.toList_inj.mp (by simp)
    rw [hgiven, List.length_append, Nat.sub_sub, Nat.add_assoc]

/-- A move that is made before more arrives is not missed when it has arrived. -/
theorem drain_feed_of_moved (given : Array UInt8) (h : d.step = .moved out next)
    (more : List UInt8) : (d.feed more).drain given = (next.feed more).drain (given ++ out) := by
  cases moves_of_step h with
  | header position rest => exact drain_of_moved given rfl
  | @chunkLength c e length hlength =>
    have hstep : step ⟨.chunkLength, ⟨c.position, c.rest ++ more⟩⟩ =
        .moved [] (openChunk length ⟨e.position, e.rest ++ more⟩) := by
      simp only [step, settledLength?_append hlength more]
    exact drain_of_moved given hstep
  | @chunk start length position missing taken rest hne hle hall =>
    show drain given ⟨_, ⟨position, (out ++ rest) ++ more⟩⟩ = _
    rw [List.append_assoc]
    exact drain_chunk_append start length position hne hle (rest ++ more) given
  | chunkEnd start length c => exact drain_of_moved given rfl
  | @runLength c e run hrun =>
    have hstep : step ⟨.runLength, ⟨c.position, c.rest ++ more⟩⟩ =
        .moved (List.replicate run 0) ⟨.chunkLength, ⟨e.position, e.rest ++ more⟩⟩ := by
      simp only [step, settledLength?_append hrun more]
    exact drain_of_moved given hstep

theorem drain_feed_of_drain {given given' : Array UInt8}
    (h : d.drain given = (next, .ok given')) (more : List UInt8) :
    (d.feed more).drain given = (next.feed more).drain given' := by
  fun_induction drain given d with
  | case1 given d hstuck => cases h; rfl
  | case2 given d error next' hfailed => cases h
  | case3 given d bytes next' hmoved ih =>
    rw [drain_feed_of_moved given hmoved more]
    exact ih h

/-- What was given out before stays in front. -/
theorem drain_append (front given : Array UInt8) (d : Decoder) :
    d.drain (front ++ given) = ((d.drain given).1, (d.drain given).2.map (front ++ ·)) := by
  fun_induction drain given d with
  | case1 given d hstuck => exact drain_of_stuck _ hstuck
  | case2 given d error next hfailed => exact drain_of_failed _ hfailed
  | case3 given d bytes next hmoved ih =>
    have hassoc : front ++ given ++ bytes = front ++ (given ++ bytes) :=
      Array.toList_inj.mp (by simp)
    rw [drain_of_moved _ hmoved, hassoc]
    exact ih

theorem drain_feed_of_decode {item : Option (List UInt8)} (h : d.decode = (next, .ok item))
    (given : Array UInt8) (more : List UInt8) :
    (d.feed more).drain given = (next.feed more).drain (given ++ item.getD []) := by
  obtain ⟨out, hdrain, hout⟩ := exists_drain_of_decode h
  have hfront : d.drain given = (next, .ok (given ++ out)) := by
    have hall := drain_append given #[] d
    rw [Array.append_empty, hdrain] at hall
    exact hall
  have hlist : given ++ out = given ++ item.getD [] :=
    Array.toList_inj.mp (by simp [hout])
  rw [drain_feed_of_drain hfront more, hlist]

theorem decode_of_drain {given : Array UInt8} (h : d.drain #[] = (next, .ok given)) :
    d.decode.1 = next ∧ Answer.bytes d.decode.2 = given.toList := by
  have hdecode : d.decode = (next, .ok (if given.isEmpty then none else some given.toList)) := by
    rw [decode, h]
    rfl
  rw [hdecode]
  refine ⟨rfl, ?_⟩
  by_cases hempty : given.isEmpty = true
  · rw [if_pos hempty, Array.isEmpty_iff.mp hempty]
    rfl
  · rw [if_neg hempty]
    rfl

theorem exists_failed_feed (h : d.step = .failed error next) (more : List UInt8) :
    ∃ later, (d.feed more).step = .failed error later := by
  obtain ⟨position, b, rest, hb, rfl, rfl, -⟩ := failed_cases h
  refine ⟨⟨.header, ⟨position, rest ++ more⟩⟩, ?_⟩
  show (if b = Body.header then _ else _) = _
  rw [if_neg hb]
  rfl

/-- No request was refused, and nothing was lost with how the bytes were cut: what is still
to come from the decoder and what came from it are together what had come from one that was
fed everything at first. -/
def Seamless (d : Decoder) (requests : List Request) : Prop :=
  (∀ a ∈ (d.serve requests).2, ∃ item, a = .ok item) ∧
    ∀ given more, (d.feed (Request.fed requests ++ more)).drain given =
      ((d.serve requests).1.feed more).drain
        (given ++ (d.serve requests).2.flatMap Answer.bytes)

theorem seamless_nil (d : Decoder) : d.Seamless [] := by
  refine ⟨fun a ha => absurd ha List.not_mem_nil, fun given more => ?_⟩
  have hnone : given ++ ([] : List UInt8) = given := Array.toList_inj.mp (by simp)
  show drain given (d.feed more) = drain (given ++ ([] : List UInt8)) (d.feed more)
  rw [hnone]

theorem feed_fed_feed (d : Decoder) (piece : List UInt8) (requests : List Request)
    (more : List UInt8) :
    d.feed (Request.fed (.feed piece :: requests) ++ more) =
      (d.feed piece).feed (Request.fed requests ++ more) := by
  rw [Request.fed_cons, List.append_assoc, ← feed_feed]
  rfl

theorem seamless_feed {piece : List UInt8} {requests : List Request}
    (h : (d.feed piece).Seamless requests) : d.Seamless (.feed piece :: requests) := by
  refine ⟨h.1, fun given more => ?_⟩
  rw [feed_fed_feed]
  exact h.2 given more

theorem seamless_decode {item : Option (List UInt8)} {requests : List Request}
    (hdecode : d.decode = (next, .ok item)) (h : next.Seamless requests) :
    d.Seamless (.decode :: requests) := by
  have hserve : d.serve (.decode :: requests) =
      ((next.serve requests).1, .ok item :: (next.serve requests).2) := by
    rw [serve, respond, hdecode]
    rfl
  rw [Seamless, hserve]
  refine ⟨List.forall_mem_cons.mpr ⟨⟨item, rfl⟩, h.1⟩, fun given more => ?_⟩
  have hassoc : given ++ item.getD [] ++ (next.serve requests).2.flatMap Answer.bytes =
      given ++ (item.getD [] ++ (next.serve requests).2.flatMap Answer.bytes) :=
    Array.toList_inj.mp (by simp)
  show (d.feed (Request.fed requests ++ more)).drain given = _
  rw [drain_feed_of_decode hdecode given, h.2, hassoc]
  rfl

/-- While the end is not asked for and the header is right, requests are served without a
seam. -/
theorem seamless_of_header {requests : List Request} (hend : .decodeEnd ∉ requests)
    (hheader : ∀ error next, (d.feed (Request.fed requests)).step ≠ .failed error next) :
    d.Seamless requests := by
  induction requests generalizing d with
  | nil => exact seamless_nil d
  | cons r requests ih =>
    have hrest : .decodeEnd ∉ requests := fun hmem => hend (List.mem_cons_of_mem r hmem)
    cases r with
    | feed piece =>
      have hall := feed_fed_feed d piece requests []
      rw [List.append_nil, List.append_nil] at hall
      rw [hall] at hheader
      exact seamless_feed (ih hrest hheader)
    | decode =>
      cases hdecode : d.decode with
      | mk next answer =>
        cases answer with
        | error error =>
          obtain ⟨later, hlater⟩ := exists_failed_feed (step_of_decode_error hdecode)
            (Request.fed (.decode :: requests))
          exact absurd hlater (hheader error later)
        | ok item =>
          refine seamless_decode hdecode (ih hrest ?_)
          intro error later hfailed
          have hfirst := drain_feed_of_decode hdecode #[] (Request.fed requests)
          rw [drain_of_failed _ hfailed] at hfirst
          exact hheader error later (step_of_drain_error hfirst)
    | decodeEnd => exact absurd List.mem_cons_self hend

/-- A decoder that was just asked for bytes, and gave an answer, is stuck. -/
theorem step_of_serve_decode {requests : List Request}
    (h : ∀ a ∈ (d.serve (requests ++ [.decode])).2, ∃ item, a = .ok item) :
    (d.serve (requests ++ [.decode])).1.step = .stuck := by
  rw [serve_append] at h ⊢
  have hlast : (d.serve requests).1.decode.2 ∈
      (d.serve requests).2 ++ [(d.serve requests).1.decode.2] :=
    List.mem_append_right _ List.mem_cons_self
  obtain ⟨item, hitem⟩ := h _ hlast
  exact (decode_ok (Prod.ext rfl hitem)).1

theorem step_feed_start_ne_failed {body : List UInt8} (h : body = [] ∨ body.head? = some 0)
    (error : BodyError) (next : Decoder) : (start.feed body).step ≠ .failed error next := by
  intro hfailed
  obtain ⟨position, b, rest, hb, hd, -, -⟩ := failed_cases hfailed
  have hbody : body = b :: rest := congrArg (fun d => d.cursor.rest) hd
  subst hbody
  rcases h with hnil | hhead
  · cases hnil
  · exact hb (Option.some.inj hhead)

end Decoder

open Decoder in
/-- What a decoder keeps to under any requests, behind errors as well.  Every byte fed is
understood, kept back or refused as a header, and inside a chunk the count of what was
understood says how much of the chunk came out.  Asked for bytes, a decoder keeps back two
at most, and then only where they may begin a long length.  As long as the end is not asked
for, a body with the right header leaves a decoder that was just asked as if all of it had
been fed and asked for at once, and gives out the same bytes. -/
theorem requests_are_accounted_for (requests : List Request) :
    (Request.fed requests).length =
        (start.serve requests).1.cursor.position + (start.serve requests).1.buffered +
          (start.serve requests).2.countP Answer.refusesHeader ∧
      (∀ first length missing, (start.serve requests).1.phase = .chunk first length missing →
        missing ≤ length ∧ length ≤ 65535 ∧
          first + (length - missing) = (start.serve requests).1.cursor.position) ∧
      (∀ next item, (start.serve requests).1.decode = (next, .ok item) →
        next.buffered ≤ 2 ∧ ∀ b rest, next.cursor.rest = b :: rest →
          (next.phase = .chunkLength ∨ next.phase = .runLength) ∧ b = 0) ∧
      (.decodeEnd ∉ requests →
        (Request.fed requests = [] ∨ (Request.fed requests).head? = some 0) →
        let asked := start.serve (requests ++ [.decode])
        let whole := (start.feed (Request.fed requests)).decode
        asked.1 = whole.1 ∧ asked.2.flatMap Answer.bytes = Answer.bytes whole.2 ∧
          ∀ answer ∈ asked.2, ∃ item, answer = .ok item) := by
  have hstart : start.Placed := fun first length missing hphase => by cases hphase
  refine ⟨?_, placed_serve hstart requests, fun next item => rest_of_decode, ?_⟩
  · have hreach := reach_serve start requests
    have hzero : start.reach = 0 := rfl
    unfold reach at hreach hzero
    omega
  · intro hend hheader asked whole
    have hfed : Request.fed (requests ++ [.decode]) = Request.fed requests := by
      simp [Request.fed, Request.piece]
    have hasked : .decodeEnd ∉ requests ++ [.decode] := by
      simp [hend]
    have hright := step_feed_start_ne_failed hheader
    rw [← hfed] at hright
    obtain ⟨hanswers, hdrain⟩ := seamless_of_header hasked hright
    have hall := hdrain #[] []
    rw [feed_nil, drain_of_stuck _ (step_of_serve_decode hanswers), List.append_nil, hfed] at hall
    obtain ⟨hnext, hbytes⟩ := decode_of_drain hall
    refine ⟨hnext.symm, ?_, hanswers⟩
    rw [hbytes]
    simp [asked]

/-- A byte that is no header is gone without being counted, so that the chunk begins at
offset two. -/
example :
    let requests : List Request := [.feed [7, 0, 3], .decode, .decode, .feed [1], .decodeEnd]
    let served := Decoder.start.serve requests
    served.1 = ⟨.chunk 2 3 2, ⟨3, []⟩⟩ ∧ served.2.countP Answer.refusesHeader = 1 := by
  decide +kernel

end SerialVector.Body
