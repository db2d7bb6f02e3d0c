/-
A cursor under any reads.

A reader may ask for any number of bytes, and may go on behind a read that failed.  The reads
that succeed are then together the front of the byte string, up to where the cursor stands.
A machine keeps the whole string and an index in a word, where sums and differences wrap.
`IndexedReader` is such a reader.  Its bounds are checked before its index moves, and so it
reads as a cursor does, for whatever number it is asked.
-/
import SerialVector.Proofs.Cursor

namespace SerialVector

namespace Cursor

/-- What a reader may be asked for.  A count is a machine word. -/
inductive Request where
  | byte
  | bytes (count : UInt64)
  deriving DecidableEq

def Request.count : Request → Nat
  | byte => 1
  | bytes count => count.toNat

abbrev Reply := Except ConversionError (List UInt8)

def Reply.bytes (reply : Reply) : List UInt8 := reply.toOption.getD []

def read (c : Cursor) : Request → Except ConversionError (List UInt8 × Cursor)
  | .byte => c.nextByte.map fun p => ([p.1], p.2)
  | .bytes count => c.nextBytes count.toNat

/-- The cursor behind a request, and the reply to it.  A read that fails gives no cursor, and
the one there was is kept. -/
def respond (c : Cursor) (r : Request) : Cursor × Reply :=
  match c.read r with
  | .ok (bytes, d) => (d, .ok bytes)
  | .error error => (c, .error error)

/-- The cursor behind some requests, and the replies to them. -/
def serve (c : Cursor) : List Request → Cursor × List Reply
  | [] => (c, [])
  | r :: requests =>
    let served := (c.respond r).1.serve requests
    (served.1, (c.respond r).2 :: served.2)

/-! ## One read -/

variable {c : Cursor} {r : Request} {data : List UInt8}

theorem read_of_le (h : r.count ≤ c.remaining) :
    c.read r = .ok (c.rest.take r.count, ⟨c.position + r.count, c.rest.drop r.count⟩) := by
  cases r with
  | byte =>
    obtain ⟨position, rest⟩ := c
    cases rest with
    | nil => exact absurd h (Nat.not_succ_le_zero 0)
    | cons b rest => rfl
  | bytes count =>
    have hlength : (c.rest.take count.toNat).length = count.toNat := List.length_take_of_le h
    simp only [read, nextBytes, take?, hlength, if_true]
    rfl

theorem read_of_lt (h : c.remaining < r.count) : c.read r = .error (.truncated c.position) := by
  cases r with
  | byte =>
    obtain ⟨position, rest⟩ := c
    cases rest with
    | nil => rfl
    | cons b rest => exact absurd h (Nat.not_lt.mpr (Nat.succ_le_succ (Nat.zero_le rest.length)))
  | bytes count =>
    have hnone : c.take? count.toNat = none := take?_eq_none_iff.mpr h
    simp only [read, nextBytes, hnone]
    rfl

theorem respond_of_le (h : r.count ≤ c.remaining) :
    c.respond r = (⟨c.position + r.count, c.rest.drop r.count⟩, .ok (c.rest.take r.count)) := by
  rw [respond, read_of_le h]

theorem respond_of_lt (h : c.remaining < r.count) :
    c.respond r = (c, .error (.truncated c.position)) := by
  rw [respond, read_of_lt h]

/-- The cursor stands in `data`, and all that is behind it there is ahead of it. -/
def StandsIn (c : Cursor) (data : List UInt8) : Prop :=
  c.position ≤ data.length ∧ c.rest = data.drop c.position

theorem standsIn_start (data : List UInt8) : (start data).StandsIn data :=
  ⟨Nat.zero_le _, rfl⟩

theorem StandsIn.remaining_eq (h : c.StandsIn data) : c.remaining = data.length - c.position := by
  rw [remaining, h.2, List.length_drop]

theorem StandsIn.respond (h : c.StandsIn data) (r : Request) :
    (c.respond r).1.StandsIn data ∧
      data.take c.position ++ Reply.bytes (c.respond r).2 = data.take (c.respond r).1.position := by
  have hremaining := h.remaining_eq
  obtain ⟨hposition, hrest⟩ := h
  by_cases hcount : r.count ≤ c.remaining
  · rw [respond_of_le hcount]
    refine ⟨⟨?_, ?_⟩, ?_⟩
    · show c.position + r.count ≤ data.length
      omega
    · show c.rest.drop r.count = data.drop (c.position + r.count)
      rw [hrest, List.drop_drop]
    · show data.take c.position ++ c.rest.take r.count = data.take (c.position + r.count)
      rw [hrest, List.take_add]
  · rw [respond_of_lt (Nat.lt_of_not_le hcount)]
    exact ⟨⟨hposition, hrest⟩, List.append_nil _⟩

/-! ## Reads in a row -/

theorem StandsIn.serve (h : c.StandsIn data) (requests : List Request) :
    (c.serve requests).1.StandsIn data ∧
      data.take c.position ++ (c.serve requests).2.flatMap Reply.bytes =
        data.take (c.serve requests).1.position := by
  induction requests generalizing c with
  | nil => exact ⟨h, List.append_nil _⟩
  | cons r requests ih =>
    obtain ⟨hstands, hread⟩ := h.respond r
    obtain ⟨hlast, hbehind⟩ := ih hstands
    refine ⟨hlast, ?_⟩
    rw [Cursor.serve, List.flatMap_cons, ← List.append_assoc, hread]
    exact hbehind

end Cursor

/-! ## Indices in words -/

/-- A reader that holds the whole byte string and the index of the next byte in a word. -/
structure IndexedReader where
  bytes : List UInt8
  index : UInt64

namespace IndexedReader

open Cursor (Request Reply)

def start (bytes : List UInt8) : IndexedReader := ⟨bytes, 0⟩

def remaining (w : IndexedReader) : UInt64 := UInt64.ofNat w.bytes.length - w.index

def slice (w : IndexedReader) (first last : UInt64) : List UInt8 :=
  (w.bytes.take last.toNat).drop first.toNat

def respond (w : IndexedReader) : Request → IndexedReader × Reply
  | .byte =>
    match w.bytes[w.index.toNat]? with
    | none => (w, .error (.truncated w.index.toNat))
    | some b => ({ w with index := w.index + 1 }, .ok [b])
  | .bytes count =>
    if w.remaining < count then (w, .error (.truncated w.index.toNat))
    else ({ w with index := w.index + count }, .ok (w.slice w.index (w.index + count)))

def serve (w : IndexedReader) : List Request → IndexedReader × List Reply
  | [] => (w, [])
  | r :: requests =>
    let served := (w.respond r).1.serve requests
    (served.1, (w.respond r).2 :: served.2)

def cursor (w : IndexedReader) : Cursor := ⟨w.index.toNat, w.bytes.drop w.index.toNat⟩

/-- The string fits into the memory of the machine, and the index is not beyond its end. -/
def InBounds (w : IndexedReader) : Prop :=
  w.bytes.length < UInt64.size ∧ w.index.toNat ≤ w.bytes.length

section InBounds

variable {w : IndexedReader} (h : w.InBounds)
include h

theorem remaining_cursor : w.remaining.toNat = w.cursor.remaining := by
  obtain ⟨hlength, hindex⟩ := h
  have hword : (UInt64.ofNat w.bytes.length).toNat = w.bytes.length :=
    UInt64.toNat_ofNat_of_lt' hlength
  have hle : w.index ≤ UInt64.ofNat w.bytes.length := by
    rw [UInt64.le_iff_toNat_le, hword]
    exact hindex
  rw [remaining, UInt64.toNat_sub_of_le _ _ hle, hword]
  exact List.length_drop.symm

theorem toNat_index_add {count : UInt64} (hcount : count.toNat ≤ w.cursor.remaining) :
    (w.index + count).toNat = w.index.toNat + count.toNat := by
  have hremaining : w.cursor.remaining = w.bytes.length - w.index.toNat := List.length_drop
  obtain ⟨hlength, hindex⟩ := h
  have hsum : w.index.toNat + count.toNat < UInt64.size := by omega
  rw [UInt64.toNat_add]
  exact Nat.mod_eq_of_lt hsum

theorem inBounds_of_le {count : UInt64} (hcount : count.toNat ≤ w.cursor.remaining) :
    InBounds { w with index := w.index + count } := by
  have hremaining : w.cursor.remaining = w.bytes.length - w.index.toNat := List.length_drop
  refine ⟨h.1, ?_⟩
  show (w.index + count).toNat ≤ w.bytes.length
  rw [toNat_index_add h hcount]
  have hindex := h.2
  omega

/-- An index that is in bounds moves as a cursor does, and stays in bounds. -/
theorem respond_cursor (r : Request) :
    (w.respond r).1.InBounds ∧ (w.respond r).1.cursor = (w.cursor.respond r).1 ∧
      (w.respond r).2 = (w.cursor.respond r).2 := by
  have hrest : w.cursor.remaining = w.bytes.length - w.index.toNat := List.length_drop
  by_cases hcount : r.count ≤ w.cursor.remaining
  · rw [Cursor.respond_of_le hcount]
    cases r with
    | byte =>
      have hlt : w.index.toNat < w.bytes.length := by
        have hone : 1 ≤ w.cursor.remaining := hcount
        omega
      have hone : (1 : UInt64).toNat ≤ w.cursor.remaining := hcount
      simp only [respond, List.getElem?_eq_getElem hlt]
      refine ⟨inBounds_of_le h hone, ?_, ?_⟩
      · rw [cursor, toNat_index_add h hone, ← List.drop_drop]
        rfl
      · show _ = Except.ok ((w.bytes.drop w.index.toNat).take 1)
        rw [List.drop_eq_getElem_cons hlt, List.take_succ_cons, List.take_zero]
    | bytes count =>
      have hword : count.toNat ≤ w.cursor.remaining := hcount
      have hchecked : ¬ w.remaining < count := by
        rw [UInt64.lt_iff_toNat_lt, remaining_cursor h]
        omega
      simp only [respond, hchecked, if_false]
      refine ⟨inBounds_of_le h hword, ?_, ?_⟩
      · rw [cursor, toNat_index_add h hword, ← List.drop_drop]
        rfl
      · show Except.ok ((w.bytes.take (w.index + count).toNat).drop w.index.toNat) =
          Except.ok ((w.bytes.drop w.index.toNat).take count.toNat)
        rw [toNat_index_add h hword, List.drop_take, Nat.add_sub_cancel_left]
  · rw [Cursor.respond_of_lt (Nat.lt_of_not_le hcount)]
    cases r with
    | byte =>
      have hend : w.bytes.length ≤ w.index.toNat := by
        have hone : ¬ 1 ≤ w.cursor.remaining := hcount
        omega
      have hreply : w.respond .byte = (w, .error (.truncated w.index.toNat)) := by
        simp only [respond, List.getElem?_eq_none hend]
      rw [hreply]
      exact ⟨h, rfl, rfl⟩
    | bytes count =>
      have hrefused : w.remaining < count := by
        rw [UInt64.lt_iff_toNat_lt, remaining_cursor h]
        exact Nat.lt_of_not_le hcount
      have hreply : w.respond (.bytes count) = (w, .error (.truncated w.index.toNat)) := by
        simp only [respond, hrefused, if_true]
      rw [hreply]
      exact ⟨h, rfl, rfl⟩

end InBounds

theorem serve_cursor {w : IndexedReader} (h : w.InBounds) (requests : List Request) :
    (w.serve requests).1.InBounds ∧
      (w.serve requests).1.cursor = (w.cursor.serve requests).1 ∧
        (w.serve requests).2 = (w.cursor.serve requests).2 := by
  induction requests generalizing w with
  | nil => exact ⟨h, rfl, rfl⟩
  | cons r requests ih =>
    obtain ⟨hbounds, hcursor, hreply⟩ := respond_cursor h r
    obtain ⟨hlastBounds, hlast, hreplies⟩ := ih hbounds
    rw [hcursor] at hlast hreplies
    refine ⟨hlastBounds, hlast, ?_⟩
    show (w.respond r).2 :: ((w.respond r).1.serve requests).2 = _
    rw [hreply, hreplies]
    rfl

end IndexedReader

open Cursor in
/-- Whatever a reader was asked for, failed reads included, its cursor is in the byte string,
and the reads that succeeded are the bytes up to there.  A further read fails exactly if it
asks for more than remains.  It then says where the cursor is and leaves it there, so that a
smaller one gets what it asks for.  A reader with its index in a word replies the same, and
its index and what remains to it are the numbers they stand for. -/
theorem reads_are_front (data : List UInt8) (requests : List Request) :
    ((start data).serve requests).1.position ≤ data.length ∧
      ((start data).serve requests).1.position + ((start data).serve requests).1.remaining =
        data.length ∧
      ((start data).serve requests).2.flatMap Reply.bytes =
        data.take ((start data).serve requests).1.position ∧
      (∀ r : Request, let c := ((start data).serve requests).1
        ((∃ error, (c.respond r).2 = .error error) ↔ c.remaining < r.count) ∧
          (c.remaining < r.count → c.respond r = (c, .error (.truncated c.position))) ∧
          (r.count ≤ c.remaining → c.respond r =
            (⟨c.position + r.count, data.drop (c.position + r.count)⟩,
              .ok ((data.drop c.position).take r.count)))) ∧
      (data.length < UInt64.size →
        let words := (IndexedReader.start data).serve requests
        words.2 = ((start data).serve requests).2 ∧
          words.1.index.toNat = ((start data).serve requests).1.position ∧
          words.1.remaining.toNat = ((start data).serve requests).1.remaining) := by
  obtain ⟨hstands, hfront⟩ := (standsIn_start data).serve requests
  have hremaining := hstands.remaining_eq
  have hposition := hstands.1
  refine ⟨hposition, by omega, ?_, ?_, ?_⟩
  · simpa [start] using hfront
  · intro r c
    have hgiven (hle : r.count ≤ c.remaining) : c.respond r =
        (⟨c.position + r.count, data.drop (c.position + r.count)⟩,
          .ok ((data.drop c.position).take r.count)) := by
      rw [respond_of_le hle, hstands.2, List.drop_drop]
    refine ⟨⟨?_, ?_⟩, respond_of_lt, hgiven⟩
    · rintro ⟨error, herror⟩
      apply Nat.lt_of_not_le
      intro hle
      rw [hgiven hle] at herror
      cases herror
    · intro hlt
      exact ⟨_, congrArg Prod.snd (respond_of_lt hlt)⟩
  · intro hlength words
    have hbounds : (IndexedReader.start data).InBounds := ⟨hlength, Nat.zero_le _⟩
    obtain ⟨hlast, hcursor, hreplies⟩ := IndexedReader.serve_cursor hbounds requests
    refine ⟨hreplies, congrArg Cursor.position hcursor, ?_⟩
    rw [IndexedReader.remaining_cursor hlast, hcursor]
    rfl

/-- The sum of the index and the second count would wrap, and the third read still succeeds. -/
example :
    (IndexedReader.start [1, 2, 3]).serve [.byte, .bytes 0xFFFFFFFFFFFFFFFF, .bytes 2] =
      (⟨[1, 2, 3], 3⟩, [.ok [1], .error (.truncated 1), .ok [2, 3]]) := by
  cbv

end SerialVector
