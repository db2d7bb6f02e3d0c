/-
Byte strings as literal chunks and runs of zeros.

Programs are full of long runs of zeros.  A run of more than eight closes a
segment, and so does a run of any length that reaches the end.  Shorter runs stay
in the chunk, where they cost less than the two length fields of a segment.
-/
namespace SerialVector

/-- Literal bytes and the number of zeros behind them. -/
structure Segment where
  chunk : List UInt8
  run : Nat
  deriving DecidableEq

namespace Segment

/-- The longest run of zeros that stays inside a chunk. -/
def longestInner : Nat := 8

def bytes (s : Segment) : List UInt8 := s.chunk ++ List.replicate s.run 0

def join (segments : List Segment) : List UInt8 := segments.flatMap bytes

/-- The first segment and the bytes behind it, where `chunk` in reverse order and
then `zeros` zeros were already seen of it. -/
def scan (chunk : List UInt8) (zeros : Nat) : List UInt8 → Segment × List UInt8
  | [] => (⟨chunk.reverse, zeros⟩, [])
  | b :: rest =>
    if b = 0 then scan chunk (zeros + 1) rest
    else if longestInner < zeros then (⟨chunk.reverse, zeros⟩, b :: rest)
    else scan (b :: (List.replicate zeros 0 ++ chunk)) 0 rest

/-- The first segment of some bytes and what follows it. -/
def next? (data : List UInt8) : Option (Segment × List UInt8) :=
  if data.isEmpty then none else some (scan [] 0 data)

theorem length_scan_le (chunk : List UInt8) (zeros : Nat) (data : List UInt8) :
    (scan chunk zeros data).2.length ≤ data.length := by
  induction data generalizing chunk zeros with
  | nil => exact Nat.le_refl _
  | cons b rest ih =>
    rw [scan]
    split
    · exact Nat.le_succ_of_le (ih _ _)
    · split
      · exact Nat.le_refl _
      · exact Nat.le_succ_of_le (ih _ _)

theorem length_lt_of_next? {data rest : List UInt8} {s : Segment}
    (h : next? data = some (s, rest)) : rest.length < data.length := by
  cases data with
  | nil => simp [next?] at h
  | cons b tail =>
    have hscan : scan [] 0 (b :: tail) = (s, rest) := by simpa [next?] using h
    have hrest : rest = (scan [] 0 (b :: tail)).2 := by rw [hscan]
    rw [hrest, scan]
    split
    · exact Nat.lt_succ_of_le (length_scan_le _ _ _)
    · rw [if_neg (by decide)]
      exact Nat.lt_succ_of_le (length_scan_le _ _ _)

/-- The segments of some bytes, behind those collected so far. -/
def collect (segments : List Segment) (data : List UInt8) : List Segment :=
  match _h : next? data with
  | none => segments.reverse
  | some (s, rest) => collect (s :: segments) rest
termination_by data.length
decreasing_by exact length_lt_of_next? _h

end Segment

def segments (data : List UInt8) : List Segment := Segment.collect [] data

namespace Segment

theorem collect_eq (collected : List Segment) (data : List UInt8) :
    collect collected data = collected.reverse ++ segments data := by
  unfold segments
  induction hn : data.length using Nat.strongRecOn generalizing collected data with
  | ind n ih =>
    rw [collect, collect]
    split
    · simp
    · rename_i s rest h
      have hlt := hn ▸ length_lt_of_next? h
      rw [ih rest.length hlt _ rest rfl, ih rest.length hlt [s] rest rfl]
      simp

theorem segments_of_next?_none {data : List UInt8} (h : next? data = none) :
    segments data = [] := by
  rw [segments, collect]
  split <;> simp_all

theorem segments_of_next?_some {data rest : List UInt8} {s : Segment}
    (h : next? data = some (s, rest)) : segments data = s :: segments rest := by
  rw [segments, collect]
  split
  · simp_all
  · rename_i s' rest' h'
    rw [h] at h'
    simp only [Option.some.injEq, Prod.mk.injEq] at h'
    obtain ⟨rfl, rfl⟩ := h'
    rw [collect_eq]
    rfl

/-- What `scan` has seen and what it leaves is what it was given. -/
theorem bytes_scan (chunk : List UInt8) (zeros : Nat) (data : List UInt8) :
    (scan chunk zeros data).1.bytes ++ (scan chunk zeros data).2 =
      chunk.reverse ++ (List.replicate zeros 0 ++ data) := by
  induction data generalizing chunk zeros with
  | nil => simp [scan, bytes]
  | cons b rest ih =>
    rw [scan]
    split
    · rename_i hb
      rw [ih, hb, List.replicate_succ', List.append_assoc]
      rfl
    · split
      · simp [bytes]
      · rw [ih]
        simp

theorem join_segments (data : List UInt8) : join (segments data) = data := by
  induction hn : data.length using Nat.strongRecOn generalizing data with
  | ind n ih =>
    cases h : next? data with
    | none =>
      rw [segments_of_next?_none h]
      cases data with
      | nil => rfl
      | cons b rest => simp [next?] at h
    | some p =>
      have hscan : scan [] 0 data = p := by
        cases data with
        | nil => simp [next?] at h
        | cons b rest => simpa [next?] using h
      have hb := bytes_scan [] 0 data
      rw [hscan] at hb
      rw [segments_of_next?_some h]
      show p.1.bytes ++ join (segments p.2) = data
      rw [ih p.2.length (hn ▸ length_lt_of_next? h) p.2 rfl, hb]
      simp

end Segment
end SerialVector
