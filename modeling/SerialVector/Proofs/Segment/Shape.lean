/-
The shape of segments.

`Segment.scan` stops at the end or before a byte that is not zero, and then only
behind a run longer than any that stays in a chunk.  Its chunks never end in a zero.
What is known of the segments of some bytes follows from these facts about one scan
by `segments_induction`.
-/
import SerialVector.Segment

namespace SerialVector.Segment

/-! ## One scan -/

theorem scan_replicate (chunk : List UInt8) (zeros count : Nat) (data : List UInt8) :
    scan chunk zeros (List.replicate count 0 ++ data) = scan chunk (zeros + count) data := by
  induction count generalizing zeros with
  | zero => rfl
  | succ count ih =>
    rw [List.replicate_succ, List.cons_append, scan, if_pos rfl, ih]
    congr 1
    omega

theorem scan_cons_of_le {chunk : List UInt8} {zeros : Nat} {b : UInt8} (hb : b ≠ 0)
    (hzeros : zeros ≤ longestInner) (rest : List UInt8) :
    scan chunk zeros (b :: rest) = scan (b :: (List.replicate zeros 0 ++ chunk)) 0 rest := by
  rw [scan, if_neg hb, if_neg (Nat.not_lt.mpr hzeros)]

theorem scan_cons_of_lt {chunk : List UInt8} {zeros : Nat} {b : UInt8} (hb : b ≠ 0)
    (hzeros : longestInner < zeros) (rest : List UInt8) :
    scan chunk zeros (b :: rest) = (⟨chunk.reverse, zeros⟩, b :: rest) := by
  rw [scan, if_neg hb, if_pos hzeros]

/-- Nothing is taken out of a chunk again. -/
theorem prefix_chunk_scan (chunk : List UInt8) (zeros : Nat) (data : List UInt8) :
    chunk.reverse <+: (scan chunk zeros data).1.chunk := by
  induction data generalizing chunk zeros with
  | nil => exact List.prefix_refl _
  | cons b rest ih =>
    by_cases hb : b = 0
    · rw [scan, if_pos hb]
      exact ih chunk (zeros + 1)
    · by_cases hzeros : longestInner < zeros
      · have hscan : scan chunk zeros (b :: rest) = (⟨chunk.reverse, zeros⟩, b :: rest) :=
          scan_cons_of_lt hb hzeros rest
        exact hscan ▸ List.prefix_refl chunk.reverse
      · rw [scan_cons_of_le hb (Nat.le_of_not_lt hzeros)]
        refine List.IsPrefix.trans ?_ (ih _ 0)
        rw [List.reverse_cons, List.reverse_append, List.append_assoc]
        exact List.prefix_append _ _

theorem getLast?_chunk_scan {chunk : List UInt8} (h : chunk.head? ≠ some 0) (zeros : Nat)
    (data : List UInt8) : (scan chunk zeros data).1.chunk.getLast? ≠ some 0 := by
  induction data generalizing chunk zeros with
  | nil =>
    show chunk.reverse.getLast? ≠ some 0
    rw [List.getLast?_reverse]
    exact h
  | cons b rest ih =>
    by_cases hb : b = 0
    · rw [scan, if_pos hb]
      exact ih h (zeros + 1)
    · by_cases hzeros : longestInner < zeros
      · rw [scan_cons_of_lt hb hzeros]
        show chunk.reverse.getLast? ≠ some 0
        rw [List.getLast?_reverse]
        exact h
      · rw [scan_cons_of_le hb (Nat.le_of_not_lt hzeros)]
        refine ih ?_ 0
        rw [List.head?_cons]
        exact fun heq => hb (Option.some.inj heq)

theorem rest_scan (chunk : List UInt8) (zeros : Nat) (data : List UInt8) :
    (scan chunk zeros data).2 = [] ∨
      ∃ b rest, (scan chunk zeros data).2 = b :: rest ∧ b ≠ 0 ∧
        longestInner < (scan chunk zeros data).1.run := by
  induction data generalizing chunk zeros with
  | nil => exact .inl rfl
  | cons b rest ih =>
    by_cases hb : b = 0
    · rw [scan, if_pos hb]
      exact ih chunk (zeros + 1)
    · by_cases hzeros : longestInner < zeros
      · rw [scan_cons_of_lt hb hzeros]
        exact .inr ⟨b, rest, rfl, hb, hzeros⟩
      · rw [scan_cons_of_le hb (Nat.le_of_not_lt hzeros)]
        exact ih _ 0

/-! ## All segments -/

theorem segments_nil : segments [] = [] := segments_of_next?_none rfl

theorem next?_of_ne_nil {data : List UInt8} (h : data ≠ []) :
    next? data = some (scan [] 0 data) := by
  cases data with
  | nil => exact absurd rfl h
  | cons b rest => rfl

theorem segments_of_ne_nil {data : List UInt8} (h : data ≠ []) :
    segments data = (scan [] 0 data).1 :: segments (scan [] 0 data).2 :=
  segments_of_next?_some (next?_of_ne_nil h)

theorem segments_induction {motive : List UInt8 → List Segment → Prop} (nil : motive [] [])
    (cons : ∀ data, data ≠ [] → motive (scan [] 0 data).2 (segments (scan [] 0 data).2) →
      motive data ((scan [] 0 data).1 :: segments (scan [] 0 data).2))
    (data : List UInt8) : motive data (segments data) := by
  induction hn : data.length using Nat.strongRecOn generalizing data with
  | ind n ih =>
    by_cases hdata : data = []
    · rw [hdata, segments_nil]
      exact nil
    · have hlt := length_lt_of_next? (next?_of_ne_nil hdata)
      rw [segments_of_ne_nil hdata]
      exact cons data hdata (ih _ (hn ▸ hlt) _ rfl)

theorem segments_replicate {count : Nat} (h : count ≠ 0) :
    segments (List.replicate count 0) = [⟨[], count⟩] := by
  have hscan : scan [] 0 (List.replicate count 0) = (⟨[], count⟩, []) := by
    have hrow := scan_replicate [] 0 count []
    rw [List.append_nil, Nat.zero_add] at hrow
    exact hrow
  have hne : List.replicate count (0 : UInt8) ≠ [] := by
    rw [ne_eq, List.replicate_eq_nil_iff]
    exact h
  rw [segments_of_ne_nil hne, hscan, segments_nil]

/-- A long row of zeros at the front is a segment of its own. -/
theorem segments_long_front {count : Nat} (hcount : longestInner < count) {b : UInt8}
    (hb : b ≠ 0) (rest : List UInt8) :
    segments (List.replicate count 0 ++ b :: rest) = ⟨[], count⟩ :: segments (b :: rest) := by
  have hscan : scan [] 0 (List.replicate count 0 ++ b :: rest) = (⟨[], count⟩, b :: rest) := by
    rw [scan_replicate, Nat.zero_add, scan_cons_of_lt hb hcount]
    rfl
  rw [segments_of_ne_nil (by simp), hscan]

/-- Behind a short row of zeros every segment has literal bytes. -/
theorem chunk_ne_nil_of_short_front {count : Nat} (hcount : count ≤ longestInner) {b : UInt8}
    (hb : b ≠ 0) (rest : List UInt8) :
    ∀ s ∈ segments (List.replicate count 0 ++ b :: rest), s.chunk ≠ [] := by
  -- The induction is on what the bytes are, since a scan leaves no row of zeros in front.
  refine segments_induction
    (motive := fun data segments => ∀ count b rest, count ≤ longestInner → b ≠ 0 →
      data = List.replicate count 0 ++ b :: rest → ∀ s ∈ segments, s.chunk ≠ [])
    ?_ ?_ _ count b rest hcount hb rfl
  · intro count b rest _ _ _ s hs
    exact absurd hs List.not_mem_nil
  · intro data hdata ih count b rest hcount hb heq s hs
    rcases List.mem_cons.mp hs with rfl | hs
    · have hscan : scan [] 0 data = scan (b :: (List.replicate count 0 ++ [])) 0 rest := by
        rw [heq, scan_replicate, Nat.zero_add, scan_cons_of_le hb hcount]
      have hprefix := prefix_chunk_scan (b :: (List.replicate count 0 ++ [])) 0 rest
      rw [hscan]
      intro hnil
      rw [hnil, List.prefix_nil, List.reverse_eq_nil_iff] at hprefix
      exact List.cons_ne_nil _ _ hprefix
    · rcases rest_scan [] 0 data with hnil | ⟨b', rest', hrest, hb', _⟩
      · rw [hnil, segments_nil] at hs
        exact absurd hs List.not_mem_nil
      · exact ih 0 b' rest' (Nat.zero_le _) hb' hrest s hs

/-- Where the last byte is a zero, no run is empty. -/
theorem run_ne_zero_of_getLast? {data : List UInt8} (h : data.getLast? = some 0) :
    ∀ s ∈ segments data, s.run ≠ 0 := by
  refine segments_induction
    (motive := fun data segments => data.getLast? = some 0 → ∀ s ∈ segments, s.run ≠ 0)
    ?_ ?_ data h
  · intro _ s hs
    exact absurd hs List.not_mem_nil
  · intro data _ ih hlast s hs
    have hbytes : (scan [] 0 data).1.bytes ++ (scan [] 0 data).2 = data := bytes_scan [] 0 data
    rcases rest_scan [] 0 data with hnil | ⟨b, rest, hrest, _, hrun⟩
    · rw [hnil, segments_nil, List.mem_singleton] at hs
      subst hs
      intro hzero
      have hnone : ([] : List UInt8).head? ≠ some 0 := by decide
      have hchunk := getLast?_chunk_scan hnone 0 data
      rw [hnil, bytes, hzero, List.replicate_zero, List.append_nil, List.append_nil] at hbytes
      rw [hbytes] at hchunk
      exact hchunk hlast
    · rcases List.mem_cons.mp hs with rfl | hs
      · omega
      · have hrow := (congrArg List.getLast? hbytes).trans hlast
        rw [List.getLast?_append, hrest, List.getLast?_cons] at hrow
        refine ih ?_ s hs
        rw [hrest, List.getLast?_cons]
        exact hrow

end SerialVector.Segment
