/-
What a conversion may cost.

No command grows when it is brought into the order of play, and the order of play ends in
a zero, so that its last segment never lacks a run.  The body of a program is therefore at
most four bytes longer than the program.
-/
import SerialVector.Proofs.Body.Size
import SerialVector.Proofs.Conversion.Lossless

namespace SerialVector

theorem Command.length_translation_le_encode (swap : Bool) (c : Command) :
    (c.translation swap).length ≤ c.encode.length := by
  cases c with
  | repeats count => exact Nat.zero_le _
  | endIr value => exact Nat.zero_le _
  | endDr value => exact Nat.zero_le _
  | sdrSize bits => exact Nat.le_add_right 3 2
  | tdoMask mask => simp [translation, ite_reverse_eq_playOrder, encode, operandBytes]
  | sir bits value => simp [translation, ite_reverse_eq_playOrder, encode, operandBytes]
  | runTest clocks => simp [translation, encode, operandBytes]
  | sdrTdo tdi tdo =>
    simp only [translation, ite_reverse_eq_playOrder, encode, operandBytes, List.length_cons,
      length_playOrder, Nat.le_refl]
  | state value => simp [translation, encode, operandBytes]
  | raw opcode operand => simp [translation, ite_reverse_eq_playOrder, encode, operandBytes]

theorem Program.length_translation_le_encode (swap : Bool) (commands : List Command) :
    (translation swap commands).length ≤ (encode commands).length := by
  induction commands with
  | nil => exact Nat.le_refl 1
  | cons c commands ih =>
    have hfirst := Command.length_translation_le_encode swap c
    rw [encode_eq, List.length_append] at ih
    rw [translation_cons, encode_eq, encodeRow_cons]
    simp only [List.length_append]
    omega

theorem Program.translation_ne_nil (swap : Bool) (commands : List Command) :
    translation swap commands ≠ [] := by
  intro hnil
  have hlast := getLast?_translation swap commands
  rw [hnil] at hlast
  cases hlast

theorem length_body_le {config : Config} {xsvf : List UInt8} {conversion : Conversion}
    {commands : List Command} (h : Program.Spells xsvf commands)
    (hok : (convert config xsvf).result = .ok conversion) :
    conversion.body.length ≤ (Program.encode commands).length + 4 := by
  obtain ⟨-, -, -, hpacked, hbody⟩ := convert_eq_ok_iff.mp hok
  rw [toList_reorder_of_spells h] at hpacked hbody
  have hruns := Segment.run_ne_zero_of_getLast?
    (Program.getLast?_translation config.swap commands)
  have hne := Program.translation_ne_nil config.swap commands
  have hlength := Body.length_encode_le hne fun s hs =>
    Body.lengthCost_le_of_run s (hruns s hs)
  have hsegments : 0 < (segments (Program.translation config.swap commands)).length := by
    rw [Segment.segments_of_ne_nil hne]
    exact Nat.succ_pos _
  have htranslation := Program.length_translation_le_encode config.swap commands
  rw [hbody, Body.toList_pack_of_ok hpacked]
  omega

/-- Packing adds ten bytes at most and saves five with each segment, so that it adds five
to a single segment and makes three or more of them shorter.  The body of a program adds
four bytes at most to what the program has up to the mark of its end. -/
theorem packing_adds_little :
    (∀ data, (Body.pack data .unbounded).result = .ok () → 0 < (segments data).length →
      let body := (Body.pack data .unbounded).sink.toList
      body.length + 5 * (segments data).length ≤ data.length + 10 ∧
        ((segments data).length = 1 → body.length ≤ data.length + 5) ∧
        (3 ≤ (segments data).length → body.length < data.length)) ∧
    ∀ config xsvf conversion, (convert config xsvf).result = .ok conversion →
      ∃ commands ignored, Program.WellFormed 0 commands ∧
        xsvf = Program.encode commands ++ ignored ∧
        (reorder config.swap xsvf .unbounded).position = (Program.encode commands).length ∧
        conversion.body.length ≤ (Program.encode commands).length + 4 := by
  constructor
  · intro data hpacked hsegments body
    have hne : data ≠ [] := by
      intro hnil
      rw [hnil, Segment.segments_nil] at hsegments
      exact absurd hsegments (Nat.lt_irrefl 0)
    have hlength := Body.length_encode_le hne fun s _ => Body.lengthCost_le s
    have hbody : body = Body.encode (segments data) := Body.toList_pack_of_ok hpacked
    rw [← hbody] at hlength
    exact ⟨by omega, by omega, by omega⟩
  · intro config xsvf conversion hok
    obtain ⟨-, hresult, -⟩ := convert_eq_ok_iff.mp hok
    obtain ⟨commands, hcommands, ignored, hxsvf⟩ := exists_spells_of_reorder_ok hresult
    have hposition := position_reorder_encode hcommands config.swap ignored
    rw [← hxsvf] at hposition
    exact ⟨commands, ignored, hcommands, hxsvf, hposition,
      length_body_le ⟨hcommands, ignored, hxsvf⟩ hok⟩

/-- Eight shifts are a chunk with a long length. -/
example :
    let xsvf := (List.replicate 8 (0x02 :: 0xFF :: List.replicate 32 0x01)).flatten ++ [0x00]
    xsvf.length = 273 ∧ (convert .standard xsvf).result.map (·.body.length) = .ok 277 := by
  decide +kernel

end SerialVector
