/-
The extension of a path.

A path that has a last name is what leads to it, a stem and, behind a dot, an extension, with
slashes and lone dots behind the name.  Another extension takes the place of all that stands
behind the stem.  A dot that begins a name belongs to its stem, so that a name of that dot and
letters has no extension.
-/
import SerialVector.PathName

namespace SerialVector.PathName

/-- What may stand before a name: nothing, or directories with a slash behind them. -/
def Leads (lead : List Char) : Prop := lead = [] ∨ lead.getLast? = some '/'

/-- What may stand behind a name without being one. -/
inductive Trails : List Char → Prop where
  | nil : Trails []
  | slash {tail : List Char} (h : Trails tail) : Trails (tail ++ ['/'])
  | dot {tail : List Char} (h : Trails tail) : Trails (tail ++ ['/', '.'])

theorem Trails.take {tail : List Char} (h : Trails tail) (count : Nat) :
    Trails (tail.take count) := by
  induction h with
  | nil =>
    rw [List.take_nil]
    exact .nil
  | @slash tail h ih =>
    by_cases hcount : count ≤ tail.length
    · rw [List.take_append_of_le_length hcount]
      exact ih
    · rw [List.take_of_length_le (by simp; omega)]
      exact .slash h
  | @dot tail h ih =>
    by_cases hcount : count ≤ tail.length
    · rw [List.take_append_of_le_length hcount]
      exact ih
    · by_cases hslash : count = tail.length + 1
      · rw [hslash, List.take_length_add_append]
        exact .slash h
      · rw [List.take_of_length_le (by simp; omega)]
        exact .dot h

/-- A text without slashes that is the name of a file by its place. -/
structure IsName (name : List Char) : Prop where
  ne_nil : name ≠ []
  ne_dot : name ≠ ['.']
  ne_dots : name ≠ ['.', '.']
  no_slash : '/' ∉ name

/-! ## From the end -/

/-- A text that is cut behind its last `c`, read from the end. -/
theorem span_reverse {c : Char} (front : List Char) {back : List Char}
    (hfront : front = [] ∨ front.getLast? = some c) (hback : c ∉ back) :
    (front ++ back).reverse.takeWhile (· ≠ c) = back.reverse ∧
      (front ++ back).reverse.dropWhile (· ≠ c) = front.reverse := by
  have hpass : ∀ d ∈ back.reverse, decide (d ≠ c) = true := by
    intro d hd
    rw [decide_eq_true_eq]
    rintro rfl
    exact hback (List.mem_reverse.mp hd)
  have hstop : front.reverse.takeWhile (· ≠ c) = [] ∧
      front.reverse.dropWhile (· ≠ c) = front.reverse := by
    rcases hfront with rfl | hlast
    · exact ⟨rfl, rfl⟩
    · rw [← List.head?_reverse] at hlast
      obtain ⟨behind, hreverse⟩ := List.head?_eq_some_iff.mp hlast
      rw [hreverse]
      simp
  rw [List.reverse_append, List.takeWhile_append_of_pos hpass, List.dropWhile_append_of_pos hpass,
    hstop.1, hstop.2, List.append_nil]
  exact ⟨rfl, rfl⟩

theorem trim_append {tail : List Char} (h : Trails tail) (path : List Char) :
    trim (path ++ tail).reverse = trim path.reverse := by
  induction h with
  | nil => rw [List.append_nil]
  | slash h ih =>
    rw [← List.append_assoc, List.reverse_append]
    exact ih
  | dot h ih =>
    rw [← List.append_assoc, List.reverse_append]
    exact ih

/-- A name is not taken for what may stand behind one. -/
theorem trim_reverse {name : List Char} (h : IsName name) (lead : List Char) :
    trim (lead ++ name).reverse = (lead ++ name).reverse := by
  have hslash : '/' ∉ name.reverse := fun hmem => h.no_slash (List.mem_reverse.mp hmem)
  rw [List.reverse_append]
  match hreverse : name.reverse with
  | [] => exact absurd (List.reverse_eq_nil_iff.mp hreverse) h.ne_nil
  | [c] =>
    have hdot : c ≠ '.' := by
      rintro rfl
      exact h.ne_dot (List.reverse_eq_iff.mp hreverse)
    rw [hreverse] at hslash
    unfold trim
    split <;> simp_all
  | c :: d :: rest =>
    rw [hreverse] at hslash
    unfold trim
    split <;> simp_all

theorem ofReversed_of_extension {stem extension : List Char} (hstem : stem ≠ [])
    (hextension : '.' ∉ extension) (lead : List Char) :
    Last.ofReversed lead (stem ++ '.' :: extension).reverse =
      ⟨lead, stem, some extension⟩ := by
  have hspan : (stem ++ '.' :: extension).reverse.takeWhile (· ≠ '.') = extension.reverse ∧
      (stem ++ '.' :: extension).reverse.dropWhile (· ≠ '.') = '.' :: stem.reverse := by
    have hcut := span_reverse (stem ++ ['.']) (.inr List.getLast?_concat) hextension
    rw [List.append_assoc, List.reverse_concat] at hcut
    exact hcut
  rw [Last.ofReversed, hspan.1, hspan.2]
  match hreverse : stem.reverse with
  | [] => exact absurd (List.reverse_eq_nil_iff.mp hreverse) hstem
  | c :: rest =>
    show Last.mk lead (c :: rest).reverse (some extension.reverse.reverse) = _
    rw [← hreverse, List.reverse_reverse, List.reverse_reverse]

/-- A dot at the beginning is part of a name. -/
theorem ofReversed_of_plain {name : List Char} (hdot : '.' ∉ name.tail) (lead : List Char) :
    Last.ofReversed lead name.reverse = ⟨lead, name, none⟩ := by
  have hdrop : name.reverse.dropWhile (· ≠ '.') = [] ∨
      name.reverse.dropWhile (· ≠ '.') = ['.'] := by
    match name with
    | [] => exact .inl rfl
    | c :: rest =>
      by_cases hc : c = '.'
      · subst hc
        exact .inr (span_reverse ['.'] (.inr rfl) hdot).2
      · have hnone : '.' ∉ c :: rest := by
          simp only [List.mem_cons, not_or]
          exact ⟨fun heq => hc heq.symm, hdot⟩
        exact .inl (span_reverse [] (.inl rfl) hnone).2
  rcases hdrop with hdrop | hdrop <;>
    simp only [Last.ofReversed, hdrop, List.reverse_reverse]

theorem last?_eq {lead name tail : List Char} (hlead : Leads lead) (h : IsName name)
    (htail : Trails tail) :
    last? (lead ++ name ++ tail) = some (Last.ofReversed lead name.reverse) := by
  obtain ⟨hname, hrest⟩ := span_reverse lead hlead h.no_slash
  have hnot : ¬ (name.reverse = [] ∨ name.reverse = ['.'] ∨ name.reverse = ['.', '.']) := by
    rintro (hnil | hdot | hdots)
    · exact h.ne_nil (List.reverse_eq_nil_iff.mp hnil)
    · exact h.ne_dot (List.reverse_eq_iff.mp hdot)
    · exact h.ne_dots (List.reverse_eq_iff.mp hdots)
  simp only [last?, trim_append htail, trim_reverse h, hname, hrest, if_neg hnot,
    List.reverse_reverse]

/-! ## Another extension -/

theorem isName_of_stem {stem behind : List Char} (hstem : stem ≠ []) (hdot : stem ≠ ['.'])
    (hslash : '/' ∉ stem) (hbehind : '/' ∉ behind) : IsName (stem ++ '.' :: behind) := by
  have hwhole : '/' ∉ stem ++ '.' :: behind := by simp [hslash, hbehind]
  match stem with
  | [] => exact absurd rfl hstem
  | [c] =>
    have hc : c ≠ '.' := fun heq => hdot (by rw [heq])
    exact ⟨by simp, by simp, by simp [hc], hwhole⟩
  | _ :: _ :: _ => exact ⟨by simp, by simp, by simp, hwhole⟩

/-- As much is taken off the end as stands in the middle. -/
theorem take_length_sub (front middle back : List Char) :
    (front ++ (middle ++ back)).take ((front ++ (middle ++ back)).length - middle.length) =
      front ++ (middle.take back.length ++ back.take (back.length - middle.length)) := by
  have hcount : (front ++ (middle ++ back)).length - middle.length =
      front.length + back.length := by
    simp only [List.length_append]
    omega
  rw [hcount, List.take_length_add_append, List.take_append]

section Extension

variable {lead tail : String} (hlead : Leads lead.toList) (htail : Trails tail.toList)
  (extension : String)
include hlead htail

/-- The extension of a path gives way to another. -/
theorem withExtension_of_extension {stem old : String} (hstem : stem.toList ≠ [])
    (hdot : stem.toList ≠ ['.']) (hslash : '/' ∉ stem.toList) (holdSlash : '/' ∉ old.toList)
    (hold : '.' ∉ old.toList) :
    withExtension (lead ++ stem ++ "." ++ old ++ tail) extension =
      lead ++ stem ++ "." ++ extension := by
  have hwhole : (lead ++ stem ++ "." ++ old ++ tail).toList =
      lead.toList ++ (stem.toList ++ '.' :: (old.toList ++ tail.toList)) := by simp
  have hlast := last?_eq hlead (isName_of_stem hstem hdot hslash holdSlash) htail
  -- The stem keeps its dot, and behind that as much as stood behind the name.
  have hcut := take_length_sub (lead.toList ++ (stem.toList ++ ['.'])) old.toList tail.toList
  have hkeptSlash : '/' ∉ old.toList.take tail.toList.length :=
    fun hmem => holdSlash (List.mem_of_mem_take hmem)
  have hkeptDot : '.' ∉ old.toList.take tail.toList.length :=
    fun hmem => hold (List.mem_of_mem_take hmem)
  have hbare := last?_eq hlead (isName_of_stem hstem hdot hslash hkeptSlash)
    (htail.take (tail.toList.length - old.toList.length))
  rw [ofReversed_of_extension hstem hold] at hlast
  rw [ofReversed_of_extension hstem hkeptDot] at hbare
  simp only [List.append_assoc, List.cons_append, List.nil_append] at hlast hcut hbare
  simp only [withExtension, hwhole, hlast, Option.bind_some, hcut, hbare]
  simp [String.append_assoc]

/-- A name without an extension is given one. -/
theorem withExtension_of_plain {name : String} (hname : IsName name.toList)
    (hdot : '.' ∉ name.toList.tail) :
    withExtension (lead ++ name ++ tail) extension = lead ++ name ++ "." ++ extension := by
  have hlast := last?_eq hlead hname htail
  rw [ofReversed_of_plain hdot, ← String.toList_append, ← String.toList_append] at hlast
  simp only [withExtension, hlast, Option.bind_some]
  simp [String.append_assoc]

end Extension

/-- A path without a last name stays as it is. -/
theorem withExtension_of_none {path : String} (h : last? path.toList = none) (extension : String) :
    withExtension path extension = path := by
  simp [withExtension, h]

-- Without its extension the last of these is two dots, and those are no name of a file.
example : withExtension "d/a.b.xsvf" "csvf" = "d/a.b.csvf" ∧
    withExtension "d.e/.a/./" "csvf" = "d.e/.a.csvf" ∧ withExtension "d/.." "csvf" = "d/.." ∧
      withExtension "..a" "csvf" = ".." := by decide +kernel

end SerialVector.PathName
