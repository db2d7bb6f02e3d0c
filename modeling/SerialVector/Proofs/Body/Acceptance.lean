/-
Which bodies are read, and as what.

A field, and with it a pair, stands at an offset in one way only, and where the pairs of a
body stop no further pair stands.  What the grammar says of a body is therefore said once, and
since reading finds what it says, each result of reading is equivalent to what stands in the
body.
-/
import SerialVector.Proofs.Body.Grammar

namespace SerialVector.Body

variable {body : List UInt8} {offset : Nat}

/-! ## One way to read a body -/

theorem offset_lt_of_fieldAt {length width : Nat} (h : FieldAt body offset length width) :
    offset < body.length := by
  cases h with
  | short hb hne => exact (List.getElem?_eq_some_iff.mp hb).1
  | long hmark hhi hlo => exact (List.getElem?_eq_some_iff.mp hmark).1
  | last hmark hend => exact (List.getElem?_eq_some_iff.mp hmark).1

theorem FieldAt.unique {length width length' width' : Nat} (h : FieldAt body offset length width)
    (h' : FieldAt body offset length' width') : length = length' ∧ width = width' := by
  cases h with
  | short hb hne =>
    cases h' with
    | short hb' hne' =>
      cases hb.symm.trans hb'
      exact ⟨rfl, rfl⟩
    | long hmark hhi hlo => exact absurd (Option.some.inj (hb.symm.trans hmark)) hne
    | last hmark hend => exact absurd (Option.some.inj (hb.symm.trans hmark)) hne
  | long hmark hhi hlo =>
    have hlt := (List.getElem?_eq_some_iff.mp hlo).1
    cases h' with
    | short hb hne => exact absurd (Option.some.inj (hb.symm.trans hmark)) hne
    | long hmark' hhi' hlo' =>
      cases hhi.symm.trans hhi'
      cases hlo.symm.trans hlo'
      exact ⟨rfl, rfl⟩
    | last hmark' hend => omega
  | last hmark hend =>
    cases h' with
    | short hb hne => exact absurd (Option.some.inj (hb.symm.trans hmark)) hne
    | long hmark' hhi hlo =>
      have hlt := (List.getElem?_eq_some_iff.mp hlo).1
      omega
    | last hmark' hend' => exact ⟨rfl, rfl⟩

/-- Where pairs stop, no whole pair stands. -/
theorem Stops.not_pair {tail : List UInt8} {error : Option BodyError} {length width run runWidth : Nat}
    (h : Stops body offset tail error) (hchunk : FieldAt body offset length width)
    (hrun : FieldAt body (offset + width + length) run runWidth) : False := by
  have hlt := offset_lt_of_fieldAt hrun
  cases h with
  | whole hend =>
    have hbound := offset_lt_of_fieldAt hchunk
    omega
  | inChunk hchunk' hcut =>
    obtain ⟨rfl, rfl⟩ := hchunk.unique hchunk'
    omega
  | behindChunk hchunk' hcut =>
    obtain ⟨rfl, rfl⟩ := hchunk.unique hchunk'
    omega

theorem Stops.unique {tail tail' : List UInt8} {error error' : Option BodyError}
    (h : Stops body offset tail error) (h' : Stops body offset tail' error') :
    tail = tail' ∧ error = error' := by
  cases h with
  | whole hend =>
    cases h' with
    | whole hend' => exact ⟨rfl, rfl⟩
    | inChunk hchunk hcut =>
      have hlt := offset_lt_of_fieldAt hchunk
      omega
    | behindChunk hchunk hcut =>
      have hlt := offset_lt_of_fieldAt hchunk
      omega
  | inChunk hchunk hcut =>
    cases h' with
    | whole hend =>
      have hlt := offset_lt_of_fieldAt hchunk
      omega
    | inChunk hchunk' hcut' =>
      obtain ⟨rfl, rfl⟩ := hchunk.unique hchunk'
      exact ⟨rfl, rfl⟩
    | behindChunk hchunk' hcut' =>
      obtain ⟨rfl, rfl⟩ := hchunk.unique hchunk'
      omega
  | behindChunk hchunk hcut =>
    cases h' with
    | whole hend =>
      have hlt := offset_lt_of_fieldAt hchunk
      omega
    | inChunk hchunk' hcut' =>
      obtain ⟨rfl, rfl⟩ := hchunk.unique hchunk'
      omega
    | behindChunk hchunk' hcut' =>
      obtain ⟨rfl, rfl⟩ := hchunk.unique hchunk'
      exact ⟨rfl, rfl⟩

/-- A body is split into pairs in one way, up to one place where they stop. -/
theorem Pairs.unique {segments others : List Segment} {stop otherStop : Nat}
    {tail otherTail : List UInt8} {error otherError : Option BodyError}
    (h : Pairs body offset segments stop) (hstops : Stops body stop tail error)
    (hother : Pairs body offset others otherStop)
    (hotherStops : Stops body otherStop otherTail otherError) :
    segments = others ∧ stop = otherStop := by
  -- Where one row ends and the other goes on, the next pair would stand behind a stop.
  induction h generalizing others with
  | nil offset =>
    cases hother with
    | nil => exact ⟨rfl, rfl⟩
    | cons hchunk hrun hrest => exact (hstops.not_pair hchunk hrun).elim
  | cons hchunk hrun hrest ih =>
    cases hother with
    | nil => exact (hotherStops.not_pair hchunk hrun).elim
    | cons hchunk' hrun' hrest' =>
      obtain ⟨rfl, rfl⟩ := hchunk.unique hchunk'
      obtain ⟨rfl, rfl⟩ := hrun.unique hrun'
      obtain ⟨rfl, rfl⟩ := ih hstops hrest'
      exact ⟨rfl, rfl⟩

/-- What stands in a body is what is read. -/
theorem read_of_stops {segments : List Segment} {stop : Nat} {tail : List UInt8}
    {error : Option BodyError} (hheader : body[0]? = some header)
    (hpairs : Pairs body 1 segments stop) (hstops : Stops body stop tail error) :
    Contents.read body = ⟨segments, tail, error⟩ := by
  obtain ⟨stop', hpairs', hstops'⟩ := exists_pairs_of_header hheader
  obtain ⟨hsegments, rfl⟩ := hpairs'.unique hstops' hpairs hstops
  obtain ⟨htail, herror⟩ := hstops'.unique hstops
  rw [← hsegments, ← htail, ← herror]

/-! ## The results of reading -/

theorem expand_eq_ok_iff_pairs {out : List UInt8} :
    expand body = .ok out ↔ body[0]? = some header ∧
      ∃ segments, Pairs body 1 segments body.length ∧ Segment.join segments = out := by
  rw [expand_eq_ok_iff]
  constructor
  · rintro ⟨herror, hbytes⟩
    obtain ⟨hfirst, stop, hpairs, hstops⟩ := pairs_of_error_read herror (by simp) (by simp)
    rw [Contents.bytes] at hbytes
    generalize (Contents.read body).tail = tail at hstops hbytes
    cases hstops with
    | whole hend =>
      subst hend
      exact ⟨hfirst, _, hpairs, (List.append_nil _).symm.trans hbytes⟩
  · rintro ⟨hfirst, segments, hpairs, hout⟩
    rw [read_of_stops hfirst hpairs (.whole rfl)]
    exact ⟨rfl, (List.append_nil _).trans hout⟩

theorem expand_eq_truncatedChunk_iff {length : Nat} :
    expand body = .error (.truncatedChunk offset length) ↔ body[0]? = some header ∧
      ∃ segments stop width, Pairs body 1 segments stop ∧ FieldAt body stop length width ∧
        offset = stop + width ∧ body.length < offset + length := by
  rw [expand_eq_error_iff]
  constructor
  · intro herror
    obtain ⟨hfirst, stop, hpairs, hstops⟩ := pairs_of_error_read herror (by simp) (by simp)
    generalize (Contents.read body).tail = tail at hstops
    cases hstops with
    | inChunk hchunk hcut => exact ⟨hfirst, _, stop, _, hpairs, hchunk, rfl, hcut⟩
  · rintro ⟨hfirst, segments, stop, width, hpairs, hchunk, rfl, hcut⟩
    rw [read_of_stops hfirst hpairs (.inChunk hchunk hcut)]

theorem expand_eq_truncatedLength_iff :
    expand body = .error (.truncatedLength offset) ↔ body[0]? = some header ∧
      offset = body.length ∧ ∃ segments stop length width, Pairs body 1 segments stop ∧
        FieldAt body stop length width ∧ stop + width + length = offset := by
  rw [expand_eq_error_iff]
  constructor
  · intro herror
    obtain ⟨hfirst, stop, hpairs, hstops⟩ := pairs_of_error_read herror (by simp) (by simp)
    generalize (Contents.read body).tail = tail at hstops
    cases hstops with
    | behindChunk hchunk hcut => exact ⟨hfirst, rfl, _, stop, _, _, hpairs, hchunk, hcut⟩
  · rintro ⟨hfirst, rfl, segments, stop, length, width, hpairs, hchunk, hcut⟩
    rw [read_of_stops hfirst hpairs (.behindChunk hchunk hcut)]

/-- Behind the right header nothing is said of headers, and no file is read. -/
theorem error_read_of_header (h : body[0]? = some header) :
    (Contents.read body).error ≠ some .missingHeader ∧
      (∀ b, (Contents.read body).error ≠ some (.unsupportedHeader b)) ∧
      ∀ kind, (Contents.read body).error ≠ some (.unreadable kind) := by
  obtain ⟨stop, -, hstops⟩ := exists_pairs_of_header h
  generalize (Contents.read body).error = error at hstops ⊢
  generalize (Contents.read body).tail = tail at hstops
  cases hstops with
  | whole hend => simp
  | inChunk hchunk hcut => simp
  | behindChunk hchunk hcut => simp

theorem expand_eq_missingHeader_iff : expand body = .error .missingHeader ↔ body = [] := by
  rw [expand_eq_error_iff]
  constructor
  · intro herror
    rcases header_cases body with hnil | ⟨b, hfirst, hb⟩ | hfirst
    · exact hnil
    · rw [read_of_unsupported hfirst hb] at herror
      cases herror
    · exact absurd herror (error_read_of_header hfirst).1
  · rintro rfl
    rfl

theorem expand_eq_unsupportedHeader_iff {b : UInt8} :
    expand body = .error (.unsupportedHeader b) ↔ body[0]? = some b ∧ b ≠ header := by
  rw [expand_eq_error_iff]
  constructor
  · intro herror
    rcases header_cases body with rfl | ⟨b', hfirst, hb⟩ | hfirst
    · cases herror
    · rw [read_of_unsupported hfirst hb] at herror
      cases herror
      exact ⟨hfirst, hb⟩
    · exact absurd herror ((error_read_of_header hfirst).2.1 b)
  · rintro ⟨hfirst, hb⟩
    rw [read_of_unsupported hfirst hb]

theorem expand_ne_unreadable (kind : FileError.Kind) :
    expand body ≠ .error (.unreadable kind) := by
  rw [ne_eq, expand_eq_error_iff]
  rcases header_cases body with rfl | ⟨b, hfirst, hb⟩ | hfirst
  · simp [Contents.read]
  · simp [read_of_unsupported hfirst hb]
  · exact (error_read_of_header hfirst).2.2 kind

/-- A body is read exactly if it is a header and then whole pairs up to its end, as what these
pairs stand for, and it is split into fields and pairs in one way only.  Every other body is
refused for what stands in it: no header or a wrong one, a chunk that runs past the end, or a
chunk behind which the body ends. -/
theorem expand_follows_grammar (body : List UInt8) :
    (∀ out, expand body = .ok out ↔ body[0]? = some 0 ∧
      ∃ segments, Pairs body 1 segments body.length ∧
        (segments.flatMap fun s => s.chunk ++ List.replicate s.run 0) = out) ∧
    (∀ offset length width length' width', FieldAt body offset length width →
      FieldAt body offset length' width' → length = length' ∧ width = width') ∧
    (∀ segments others, Pairs body 1 segments body.length → Pairs body 1 others body.length →
      segments = others) ∧
    (expand body = .error .missingHeader ↔ body = []) ∧
    (∀ b, expand body = .error (.unsupportedHeader b) ↔ body[0]? = some b ∧ b ≠ 0) ∧
    (∀ offset length, expand body = .error (.truncatedChunk offset length) ↔
      body[0]? = some 0 ∧ ∃ segments stop width, Pairs body 1 segments stop ∧
        FieldAt body stop length width ∧ offset = stop + width ∧ body.length < offset + length) ∧
    (∀ offset, expand body = .error (.truncatedLength offset) ↔
      body[0]? = some 0 ∧ offset = body.length ∧ ∃ segments stop length width,
        Pairs body 1 segments stop ∧ FieldAt body stop length width ∧
          stop + width + length = offset) ∧
    ∀ kind, expand body ≠ .error (.unreadable kind) := by
  refine ⟨fun out => expand_eq_ok_iff_pairs, ?_, ?_, expand_eq_missingHeader_iff,
    fun b => expand_eq_unsupportedHeader_iff, fun offset length => expand_eq_truncatedChunk_iff,
    fun offset => expand_eq_truncatedLength_iff, expand_ne_unreadable⟩
  · intro offset length width length' width' h h'
    exact h.unique h'
  · intro segments others h h'
    exact (h.unique (.whole rfl) h' (.whole rfl)).1

end SerialVector.Body
