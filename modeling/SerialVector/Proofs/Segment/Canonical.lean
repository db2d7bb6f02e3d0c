/-
The one way to cut bytes into segments.

`Canonical` says what the segments of some bytes look like, without a scan.  A scan goes
through the chunk of a canonical segment, because no long row of zeros stands in it, and ends
behind its run, because a byte that is not zero follows.  So a canonical list is found again
in the bytes it joins to, and no two of them join to the same bytes.
-/
import SerialVector.Proofs.Segment.Shape

namespace SerialVector
namespace Segment

/-- What a segment is made of, wherever it stands. -/
structure Tight (s : Segment) : Prop where
  no_long_zeros : ¬ List.replicate 9 0 <:+: s.chunk
  no_zero_last : s.chunk.getLast? ≠ some 0
  ne_empty : s ≠ ⟨[], 0⟩

/-- Segments that could not have been cut in another way. -/
structure Canonical (segments : List Segment) : Prop where
  tight : ∀ s ∈ segments, Tight s
  /-- Only the run at the end may be short. -/
  long_runs : ∀ s ∈ segments.dropLast, 9 ≤ s.run
  /-- A run ends where the next chunk begins. -/
  literal_first : ∀ s ∈ segments.tail, ∃ b rest, s.chunk = b :: rest ∧ b ≠ 0

theorem canonical_nil : Canonical [] where
  tight := fun _ hs => absurd hs List.not_mem_nil
  long_runs := fun _ hs => absurd hs List.not_mem_nil
  literal_first := fun _ hs => absurd hs List.not_mem_nil

/-- What stands behind a segment: nothing, or a literal byte behind a long run. -/
def Closed (s : Segment) (rest : List Segment) : Prop :=
  rest = [] ∨ 9 ≤ s.run ∧ ∃ t more b literal, rest = t :: more ∧ t.chunk = b :: literal ∧ b ≠ 0

theorem canonical_cons_iff {s : Segment} {rest : List Segment} :
    Canonical (s :: rest) ↔ Tight s ∧ Closed s rest ∧ Canonical rest := by
  cases rest with
  | nil =>
    constructor
    · intro h
      exact ⟨h.tight s List.mem_cons_self, .inl rfl, canonical_nil⟩
    · rintro ⟨hs, -, -⟩
      refine ⟨?_, fun _ ht => absurd ht List.not_mem_nil, fun _ ht => absurd ht List.not_mem_nil⟩
      exact List.forall_mem_singleton.mpr hs
  | cons t more =>
    have hfront : (s :: t :: more).dropLast = s :: (t :: more).dropLast :=
      List.dropLast_cons_of_ne_nil (List.cons_ne_nil t more)
    constructor
    · rintro ⟨htight, hruns, hfirst⟩
      rw [hfront] at hruns
      obtain ⟨b, literal, hchunk, hb⟩ := hfirst t List.mem_cons_self
      refine ⟨htight s List.mem_cons_self, .inr ⟨hruns s List.mem_cons_self, ?_⟩, ?_⟩
      · exact ⟨t, more, b, literal, rfl, hchunk, hb⟩
      · exact ⟨fun u hu => htight u (List.mem_cons_of_mem s hu),
          fun u hu => hruns u (List.mem_cons_of_mem s hu),
          fun u hu => hfirst u (List.mem_cons_of_mem t hu)⟩
    · rintro ⟨hs, hclosed, htight, hruns, hfirst⟩
      rcases hclosed with hnil | ⟨hrun, t', more', b, literal, hrest, hchunk, hb⟩
      · cases hnil
      · obtain ⟨rfl, rfl⟩ := List.cons.inj hrest
        refine ⟨List.forall_mem_cons.mpr ⟨hs, htight⟩, ?_, ?_⟩
        · rw [hfront]
          exact List.forall_mem_cons.mpr ⟨hrun, hruns⟩
        · exact List.forall_mem_cons.mpr ⟨⟨b, literal, hchunk, hb⟩, hfirst⟩

/-! ## A canonical list is found again -/

/-- A scan goes through a chunk in which no long row of zeros stands.  The zeros seen last
count as part of the chunk, since they may go on in it. -/
theorem scan_chunk {chunk : List UInt8} {zeros : Nat}
    (hzeros : ¬ List.replicate 9 0 <:+: List.replicate zeros 0 ++ chunk)
    (hlast : (List.replicate zeros 0 ++ chunk).getLast? ≠ some 0) (seen data : List UInt8) :
    scan seen zeros (chunk ++ data) =
      scan (chunk.reverse ++ (List.replicate zeros 0 ++ seen)) 0 data := by
  induction chunk generalizing seen zeros with
  | nil =>
    rw [List.append_nil, List.getLast?_replicate] at hlast
    have hnone : zeros = 0 := by
      by_cases h : zeros = 0
      · exact h
      · rw [if_neg h] at hlast
        exact absurd rfl hlast
    rw [hnone]
    rfl
  | cons b chunk ih =>
    by_cases hb : b = 0
    · subst hb
      have hrow : List.replicate zeros 0 ++ 0 :: chunk = List.replicate (zeros + 1) 0 ++ chunk := by
        rw [List.replicate_succ', List.append_assoc]
        rfl
      rw [hrow] at hzeros hlast
      rw [List.cons_append, scan, if_pos rfl, ih hzeros hlast, List.reverse_cons,
        List.append_assoc, List.replicate_succ]
      rfl
    · have hshort : zeros ≤ longestInner := by
        apply Nat.le_of_not_lt
        intro hlong
        apply hzeros
        have hsplit : List.replicate zeros (0 : UInt8) =
            List.replicate 9 0 ++ List.replicate (zeros - 9) 0 := by
          rw [List.replicate_append_replicate]
          congr 1
          unfold longestInner at hlong
          omega
        rw [hsplit, List.append_assoc]
        exact (List.prefix_append _ _).isInfix
      have hrest : ¬ List.replicate 9 0 <:+: List.replicate 0 0 ++ chunk := by
        intro h
        apply hzeros
        have hsuffix : chunk <:+ List.replicate zeros 0 ++ b :: chunk :=
          (List.suffix_cons b chunk).trans (List.suffix_append _ _)
        exact h.trans hsuffix.isInfix
      have hrestLast : (List.replicate 0 0 ++ chunk).getLast? ≠ some 0 := by
        cases chunk with
        | nil => decide
        | cons c chunk =>
          rw [List.getLast?_append, List.getLast?_cons_cons, List.getLast?_cons] at hlast
          rw [List.replicate_zero, List.nil_append, List.getLast?_cons]
          exact hlast
      rw [List.cons_append, scan_cons_of_le hb hshort, ih hrest hrestLast, List.reverse_cons,
        List.append_assoc]
      rfl

theorem scan_bytes {s : Segment} (hs : Tight s) {data : List UInt8}
    (hdata : data = [] ∨ 9 ≤ s.run ∧ ∃ b rest, data = b :: rest ∧ b ≠ 0) :
    scan [] 0 (s.bytes ++ data) = (s, data) := by
  have hzeros : ¬ List.replicate 9 0 <:+: List.replicate 0 0 ++ s.chunk := hs.no_long_zeros
  have hlast : (List.replicate 0 0 ++ s.chunk).getLast? ≠ some 0 := hs.no_zero_last
  have hchunk : scan [] 0 (s.chunk ++ (List.replicate s.run 0 ++ data)) =
      scan s.chunk.reverse s.run data := by
    rw [scan_chunk hzeros hlast, scan_replicate, List.replicate_zero, List.append_nil,
      List.append_nil, Nat.zero_add]
  rw [bytes, List.append_assoc, hchunk]
  rcases hdata with rfl | ⟨hrun, b, rest, rfl, hb⟩
  · rw [scan, List.reverse_reverse]
  · rw [scan_cons_of_lt hb hrun, List.reverse_reverse]

theorem bytes_ne_nil {s : Segment} (hs : Tight s) : s.bytes ≠ [] := by
  intro hnil
  obtain ⟨hchunk, hrun⟩ := List.append_eq_nil_iff.mp hnil
  rw [List.replicate_eq_nil_iff] at hrun
  apply hs.ne_empty
  cases s
  simp only at hchunk hrun
  rw [hchunk, hrun]

theorem segments_join {segments : List Segment} (h : Canonical segments) :
    SerialVector.segments (join segments) = segments := by
  induction segments with
  | nil => exact segments_nil
  | cons s rest ih =>
    obtain ⟨hs, hclosed, hrest⟩ := canonical_cons_iff.mp h
    have hjoin : join (s :: rest) = s.bytes ++ join rest := List.flatMap_cons
    have hne : s.bytes ++ join rest ≠ [] := List.append_ne_nil_of_left_ne_nil (bytes_ne_nil hs) _
    have hdata : join rest = [] ∨
        9 ≤ s.run ∧ ∃ b more, join rest = b :: more ∧ b ≠ 0 := by
      rcases hclosed with rfl | ⟨hrun, t, more, b, literal, rfl, hchunk, hb⟩
      · exact .inl rfl
      · refine .inr ⟨hrun, b, literal ++ List.replicate t.run 0 ++ join more, ?_, hb⟩
        rw [join, List.flatMap_cons, bytes, hchunk]
        rfl
    rw [hjoin, segments_of_ne_nil hne, scan_bytes hs hdata, ih hrest]

/-! ## A scan makes a canonical list -/

/-- Too few zeros in front of a literal byte make no long row. -/
theorem no_long_zeros_replicate {zeros : Nat} {seen : List UInt8}
    (hseen : ¬ List.replicate 9 0 <:+: seen) (hhead : seen.head? ≠ some 0)
    (hzeros : zeros ≤ longestInner) : ¬ List.replicate 9 0 <:+: List.replicate zeros 0 ++ seen := by
  induction zeros with
  | zero => exact hseen
  | succ zeros ih =>
    have hcons : List.replicate (zeros + 1) 0 ++ seen = 0 :: (List.replicate zeros 0 ++ seen) := rfl
    rw [hcons, List.infix_cons_iff, not_or]
    refine ⟨?_, ih (Nat.le_of_succ_le hzeros)⟩
    intro hprefix
    -- The row would reach into `seen`, which begins with another byte.
    rw [← hcons, List.prefix_iff_getElem?] at hprefix
    unfold longestInner at hzeros
    have hlength : (List.replicate (zeros + 1) (0 : UInt8)).length = zeros + 1 :=
      List.length_replicate
    have hzero := hprefix (zeros + 1) (by rw [List.length_replicate]; omega)
    rw [List.getElem_replicate, List.getElem?_append_right (Nat.le_of_eq hlength), hlength,
      Nat.sub_self, ← List.head?_eq_getElem?] at hzero
    exact hhead hzero

theorem no_long_zeros_scan {seen : List UInt8} (hseen : ¬ List.replicate 9 0 <:+: seen)
    (hhead : seen.head? ≠ some 0) (zeros : Nat) (data : List UInt8) :
    ¬ List.replicate 9 0 <:+: (scan seen zeros data).1.chunk := by
  have hreverse {row : List UInt8} (hrow : ¬ List.replicate 9 0 <:+: row) :
      ¬ List.replicate 9 0 <:+: row.reverse := by
    rw [← List.reverse_replicate, List.reverse_infix]
    exact hrow
  induction data generalizing seen zeros with
  | nil => exact hreverse hseen
  | cons b rest ih =>
    by_cases hb : b = 0
    · rw [scan, if_pos hb]
      exact ih hseen hhead (zeros + 1)
    · by_cases hzeros : longestInner < zeros
      · rw [scan_cons_of_lt hb hzeros]
        exact hreverse hseen
      · rw [scan_cons_of_le hb (Nat.le_of_not_lt hzeros)]
        refine ih ?_ ?_ 0
        · rw [List.infix_cons_iff, not_or]
          refine ⟨?_, no_long_zeros_replicate hseen hhead (Nat.le_of_not_lt hzeros)⟩
          intro hprefix
          exact hb (List.cons_prefix_cons.mp hprefix).1.symm
        · rw [List.head?_cons]
          exact fun heq => hb (Option.some.inj heq)

theorem tight_scan {data : List UInt8} (hdata : data ≠ []) : Tight (scan [] 0 data).1 where
  no_long_zeros := no_long_zeros_scan (by decide) (by decide) 0 data
  no_zero_last := getLast?_chunk_scan (by decide) 0 data
  ne_empty := by
    intro hempty
    have hbytes : (scan [] 0 data).1.bytes ++ (scan [] 0 data).2 = data := bytes_scan [] 0 data
    rcases rest_scan [] 0 data with hnil | ⟨b, rest, -, -, hrun⟩
    · rw [hempty, hnil] at hbytes
      exact hdata hbytes.symm
    · rw [hempty] at hrun
      exact Nat.not_lt_zero _ hrun

theorem closed_scan (data : List UInt8) :
    Closed (scan [] 0 data).1 (SerialVector.segments (scan [] 0 data).2) := by
  rcases rest_scan [] 0 data with hnil | ⟨b, rest, hrest, hb, hrun⟩
  · rw [hnil, segments_nil]
    exact .inl rfl
  · rw [hrest, segments_of_ne_nil (List.cons_ne_nil b rest)]
    obtain ⟨literal, hliteral⟩ := prefix_chunk_scan [b] 0 rest
    refine .inr ⟨hrun, _, _, b, literal, rfl, ?_, hb⟩
    rw [scan_cons_of_le hb (Nat.zero_le _)]
    exact hliteral.symm

theorem canonical_segments (data : List UInt8) : Canonical (SerialVector.segments data) := by
  refine segments_induction (motive := fun _ segments => Canonical segments) canonical_nil ?_ data
  intro data hdata ih
  exact canonical_cons_iff.mpr ⟨tight_scan hdata, closed_scan data, ih⟩

/-! ## Segments on request -/

/-- The answer to a request for a further segment, and the bytes that are left then.  Where
there is no segment, nothing is taken. -/
def request (data : List UInt8) : Option Segment × List UInt8 :=
  match next? data with
  | none => (none, data)
  | some (s, rest) => (some s, rest)

/-- The answer to a request before which `n` others were made. -/
def answer (data : List UInt8) : Nat → Option Segment
  | 0 => (request data).1
  | n + 1 => answer (request data).2 n

theorem request_nil : request [] = (none, []) := rfl

theorem request_of_ne_nil {data : List UInt8} (h : data ≠ []) :
    request data = (some (scan [] 0 data).1, (scan [] 0 data).2) := by
  rw [request, next?_of_ne_nil h]

theorem answer_eq (data : List UInt8) (n : Nat) :
    answer data n = (SerialVector.segments data)[n]? := by
  induction n generalizing data with
  | zero =>
    rw [answer]
    by_cases h : data = []
    · rw [h, request_nil, segments_nil]
      rfl
    · rw [request_of_ne_nil h, segments_of_ne_nil h]
      rfl
  | succ n ih =>
    rw [answer, ih]
    by_cases h : data = []
    · rw [h, request_nil, segments_nil]
      rfl
    · rw [request_of_ne_nil h, segments_of_ne_nil h, List.getElem?_cons_succ]

/-- Nine zeros close a segment, and eight do not. -/
example : SerialVector.segments ([7] ++ List.replicate 9 0 ++ [8] ++ List.replicate 8 0 ++ [9, 0]) =
    [⟨[7], 9⟩, ⟨[8] ++ List.replicate 8 0 ++ [9], 1⟩] := by decide +kernel

end Segment

/-- The segments of some bytes are canonical, and no other canonical segments join to these
bytes.  On request they are given one after the other, and then none, however often one
asks. -/
theorem segments_are_the_canonical_ones (data : List UInt8) :
    (∀ candidate : List Segment,
      candidate = segments data ↔ Segment.join candidate = data ∧ Segment.Canonical candidate) ∧
    ∀ n, Segment.answer data n = (segments data)[n]? := by
  refine ⟨fun candidate => ⟨?_, ?_⟩, Segment.answer_eq data⟩
  · rintro rfl
    exact ⟨Segment.join_segments data, Segment.canonical_segments data⟩
  · rintro ⟨rfl, hcanonical⟩
    exact (Segment.segments_join hcanonical).symm

end SerialVector
