/-
How long bodies are.

A segment costs its two length fields and saves the zeros of its run.  Every segment but
the last has a run that saves five bytes more than it costs, in whichever form its lengths
are written, so that only the last one and the header can make a body longer than what was
packed into it.
-/
import SerialVector.Proofs.Body.Encoding
import SerialVector.Proofs.Segment.Shape

namespace SerialVector.Body

theorem length_encodeLength (n : Nat) :
    (encodeLength n).length = if n < 256 then 1 else 3 := by
  by_cases hn : n < 256
  · rw [encodeLength_short hn, if_pos hn]
    rfl
  · rw [encodeLength_long (Nat.le_of_not_lt hn), if_neg hn]
    rfl

/-- What the two lengths of a segment take. -/
def lengthCost (s : Segment) : Nat :=
  (encodeLength s.chunk.length).length + (encodeLength s.run).length

theorem length_encodeSegment (s : Segment) :
    (encodeSegment s).length + s.run = s.bytes.length + lengthCost s := by
  simp only [encodeSegment, Segment.bytes, lengthCost, List.length_append, List.length_replicate]
  omega

section Cost

variable (s : Segment)

theorem lengthCost_le : lengthCost s ≤ s.run + 4 := by
  rw [lengthCost, length_encodeLength, length_encodeLength]
  split <;> split <;> omega

theorem lengthCost_le_of_run (h : s.run ≠ 0) : lengthCost s ≤ s.run + 3 := by
  rw [lengthCost, length_encodeLength, length_encodeLength]
  split <;> split <;> omega

/-- A run that closes a segment before the end pays for it. -/
theorem lengthCost_le_of_long (h : Segment.longestInner < s.run) : lengthCost s + 5 ≤ s.run := by
  unfold Segment.longestInner at h
  rw [lengthCost, length_encodeLength, length_encodeLength]
  split <;> split <;> omega

end Cost

/-- The last segment may cost up to `excess` more than it saves, the others save. -/
theorem length_encodeRow_le {excess : Nat} {data : List UInt8} (hne : data ≠ [])
    (h : ∀ s ∈ segments data, lengthCost s ≤ s.run + excess) :
    (encodeRow (segments data)).length + 5 * (segments data).length ≤
      data.length + excess + 5 := by
  refine Segment.segments_induction
    (motive := fun data segments => data ≠ [] →
      (∀ s ∈ segments, lengthCost s ≤ s.run + excess) →
        (encodeRow segments).length + 5 * segments.length ≤ data.length + excess + 5)
    ?_ ?_ data hne h
  · intro hnil
    exact absurd rfl hnil
  · intro data _ ih _ hcost
    have hfirst := length_encodeSegment (Segment.scan [] 0 data).1
    have hdata : (Segment.scan [] 0 data).1.bytes ++ (Segment.scan [] 0 data).2 = data :=
      Segment.bytes_scan [] 0 data
    have hlength := congrArg List.length hdata
    rw [List.length_append] at hlength
    show ((encodeSegment _) ++ encodeRow _).length + 5 * (_ + 1) ≤ _
    rw [List.length_append]
    rcases Segment.rest_scan [] 0 data with hnil | ⟨b, rest, hrest, -, hlong⟩
    · have hlast := hcost _ List.mem_cons_self
      rw [hnil, Segment.segments_nil, encodeRow_nil, List.length_nil, List.length_nil]
      omega
    · have hpays := lengthCost_le_of_long _ hlong
      have hbehind : (Segment.scan [] 0 data).2 ≠ [] := by
        rw [hrest]
        exact List.cons_ne_nil b rest
      have hmore := ih hbehind fun s hs => hcost s (List.mem_cons_of_mem _ hs)
      omega

theorem length_encode_le {excess : Nat} {data : List UInt8} (hne : data ≠ [])
    (h : ∀ s ∈ segments data, lengthCost s ≤ s.run + excess) :
    (encode (segments data)).length + 5 * (segments data).length ≤ data.length + excess + 6 := by
  have hrow := length_encodeRow_le hne h
  rw [encode, List.length_cons]
  omega

end SerialVector.Body
