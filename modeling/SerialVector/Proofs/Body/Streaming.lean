/-
Bodies that arrive in pieces.

However a body is cut, and however often a decoder is asked in between, what it gives
out in the end is what a reader of the whole body finds.
-/
import SerialVector.Body.Delivery
import SerialVector.Proofs.Body.Grammar
import SerialVector.Proofs.Body.Outlook

namespace SerialVector.Body

/-- Pieces of a body, each with the number of times a decoder is asked behind it. -/
abbrev Schedule := List (List UInt8 × Nat)

def Schedule.body (schedule : Schedule) : List UInt8 := (schedule.map Prod.fst).flatten

namespace Delivery

open Reading

/-- Asks a decoder a number of times, unless it fails before. -/
def ask (out : Array UInt8) (d : Decoder) : Nat → Decoder × Delivery
  | 0 => (d, ⟨out, none⟩)
  | n + 1 =>
    match d.decode with
    | (next, .ok item) => ask (out ++ item.getD []) next n
    | (next, .error error) => (next, ⟨out, some error⟩)

/-- The delivery of the rest of a schedule, and of the end behind it. -/
def follow (out : Array UInt8) (d : Decoder) : Schedule → Delivery
  | [] => (exhaust Decoder.decodeEnd Decoder.potential_lt_of_decodeEnd out d).2
  | (piece, asked) :: schedule =>
    match ask out (d.feed piece) asked with
    | (next, ⟨out, none⟩) => follow out next schedule
    | (_, delivery) => delivery

def reading (delivery : Delivery) : Reading := ⟨delivery.bytes.toList, delivery.error⟩

/-- What a delivery and the outlook behind it come to.  Nothing is behind an error. -/
def before (delivery : Delivery) (outlook : Reading) : Reading :=
  match delivery.error with
  | none => outlook.after delivery.bytes.toList
  | some _ => delivery.reading

theorem outlook_feed_of_ask (out : Array UInt8) (d : Decoder) (n : Nat) (more : List UInt8) :
    (d.feed more).outlook.after out.toList =
      (ask out d n).2.before ((ask out d n).1.feed more).outlook := by
  induction n generalizing out d with
  | zero => rfl
  | succ n ih =>
    cases hdecode : d.decode with
    | mk next answer =>
      cases answer with
      | error error =>
        simp only [ask, hdecode]
        rw [Decoder.decode_error hdecode more]
        simp [before, reading, after]
      | ok item =>
        simp only [ask, hdecode]
        rw [← ih, (Decoder.decode_ok hdecode).2 more, after_after, Array.toList_appendList]

theorem reading_exhaust_decodeEnd (out : Array UInt8) (d : Decoder) :
    (exhaust Decoder.decodeEnd Decoder.potential_lt_of_decodeEnd out d).2.reading =
      d.outlook.after out.toList := by
  induction hn : d.potential using Nat.strongRecOn generalizing out d with
  | ind n ih =>
    have houtlook := Decoder.outlook_of_decodeEnd d
    rw [exhaust]
    split
    · rename_i next hend
      rw [hend] at houtlook
      rw [houtlook]
      simp [reading, after]
    · rename_i next bytes hend
      rw [hend] at houtlook
      have hlt : next.potential < n := hn ▸ Decoder.potential_lt_of_decodeEnd hend
      rw [ih next.potential hlt _ next rfl, houtlook, after_after, Array.toList_appendList]
    · rename_i next error hend
      rw [hend] at houtlook
      rw [houtlook]
      simp [reading, after]

/-- What a delivery comes to does not depend on its schedule. -/
theorem reading_follow (out : Array UInt8) (d : Decoder) (schedule : Schedule) :
    (follow out d schedule).reading = (d.feed schedule.body).outlook.after out.toList := by
  induction schedule generalizing out d with
  | nil =>
    show _ = (d.feed []).outlook.after out.toList
    rw [Decoder.feed_nil]
    exact reading_exhaust_decodeEnd out d
  | cons entry schedule ih =>
    obtain ⟨piece, asked⟩ := entry
    have hask := outlook_feed_of_ask out (d.feed piece) asked (Schedule.body schedule)
    show _ = (d.feed (piece ++ Schedule.body schedule)).outlook.after out.toList
    rw [← Decoder.feed_feed, hask, follow]
    rcases hrun : ask out (d.feed piece) asked with ⟨next, given, error⟩
    cases error with
    | none =>
      rw [ih given next]
      rfl
    | some error => rfl

theorem exists_ask_of_exhaust (out : Array UInt8) (d : Decoder) :
    ∃ n, exhaust Decoder.decode Decoder.potential_lt_of_decode out d = ask out d n := by
  induction hn : d.potential using Nat.strongRecOn generalizing out d with
  | ind n ih =>
    rw [exhaust]
    split
    · rename_i next hdecode
      exact ⟨1, by simp [ask, hdecode]⟩
    · rename_i next bytes hdecode
      have hlt : next.potential < n := hn ▸ Decoder.potential_lt_of_decode hdecode
      obtain ⟨asked, hasked⟩ := ih next.potential hlt (out ++ bytes) next rfl
      exact ⟨asked + 1, by simp [ask, hdecode, hasked]⟩
    · rename_i next error hdecode
      exact ⟨1, by simp [ask, hdecode]⟩

theorem exists_schedule_of_proceed (out : Array UInt8) (d : Decoder) (pieces : List (List UInt8)) :
    ∃ schedule : Schedule, schedule.map Prod.fst = pieces ∧
      proceed out d pieces = follow out d schedule := by
  induction pieces generalizing out d with
  | nil => exact ⟨[], rfl, rfl⟩
  | cons piece pieces ih =>
    obtain ⟨asked, hasked⟩ := exists_ask_of_exhaust out (d.feed piece)
    rcases hrun : ask out (d.feed piece) asked with ⟨next, given, error⟩
    obtain ⟨schedule, hpieces, hproceed⟩ := ih given next
    refine ⟨(piece, asked) :: schedule, congrArg (piece :: ·) hpieces, ?_⟩
    rw [proceed, follow, hasked, hrun]
    cases error with
    | none => exact hproceed
    | some error => rfl

end Delivery

/-- Feeds a new decoder by a schedule until the end of the body or an error. -/
def Schedule.run (schedule : Schedule) : Delivery := Delivery.follow #[] .start schedule

theorem Schedule.reading_run (schedule : Schedule) :
    schedule.run.reading = Reading.ofContents (Contents.read schedule.body) := by
  rw [Schedule.run, Delivery.reading_follow, Decoder.outlook_start_feed]
  rfl

/-- A body that comes in pieces is read as the whole body is, whatever the schedule.
Where it is cut off, its whole pairs and the literal bytes behind them have come out. -/
theorem schedule_reads_whole (schedule : Schedule) :
    (∀ out, expand schedule.body = .ok out →
      schedule.run.error = none ∧ schedule.run.bytes.toList = out) ∧
    (∀ error, expand schedule.body = .error error → schedule.run.error = some error) ∧
    (∀ offset length, expand schedule.body = .error (.truncatedChunk offset length) →
      ∃ segments stop width, Pairs schedule.body 1 segments stop ∧
        FieldAt schedule.body stop length width ∧
        offset = stop + width ∧ schedule.body.length < offset + length ∧
        schedule.run.bytes.toList =
          (segments.flatMap fun s => s.chunk ++ List.replicate s.run 0) ++
            schedule.body.drop offset) ∧
    (∀ offset, expand schedule.body = .error (.truncatedLength offset) →
      ∃ segments stop length width, Pairs schedule.body 1 segments stop ∧
        FieldAt schedule.body stop length width ∧
        stop + width + length = offset ∧ offset = schedule.body.length ∧
        schedule.run.bytes.toList =
          (segments.flatMap fun s => s.chunk ++ List.replicate s.run 0) ++
            schedule.body.drop (stop + width)) := by
  have hreading := schedule.reading_run
  have hbytes : schedule.run.bytes.toList = (Contents.read schedule.body).bytes :=
    congrArg Reading.bytes hreading
  have herror : schedule.run.error = (Contents.read schedule.body).error :=
    congrArg Reading.error hreading
  refine ⟨?_, ?_, ?_, ?_⟩
  · intro out hout
    obtain ⟨hnone, hread⟩ := expand_eq_ok_iff.mp hout
    exact ⟨herror.trans hnone, hbytes.trans hread⟩
  · intro error hfailed
    exact herror.trans (expand_eq_error_iff.mp hfailed)
  · intro offset length hfailed
    obtain ⟨stop, hpairs, hstops⟩ := exists_pairs_of_expand_error hfailed (by simp) (by simp)
    rw [hbytes, Contents.bytes]
    generalize (Contents.read schedule.body).tail = tail at hstops ⊢
    cases hstops with
    | inChunk hchunk hcut => exact ⟨_, stop, _, hpairs, hchunk, rfl, hcut, rfl⟩
  · intro offset hfailed
    obtain ⟨stop, hpairs, hstops⟩ := exists_pairs_of_expand_error hfailed (by simp) (by simp)
    rw [hbytes, Contents.bytes]
    generalize (Contents.read schedule.body).tail = tail at hstops ⊢
    cases hstops with
    | behindChunk hchunk hcut => exact ⟨_, stop, _, _, hpairs, hchunk, hcut, rfl, rfl⟩

/-- A chunk of three bytes that is cut off behind its second. -/
example :
    Schedule.run [([0, 3], 0), ([], 2), ([7, 8], 1)] =
      ⟨#[7, 8], some (.truncatedChunk 2 3)⟩ := by decide +kernel

/-- Asking until nothing more comes is one of the schedules. -/
theorem expand_flatten (pieces : List (List UInt8)) :
    expand pieces.flatten =
      (deliver pieces).error.elim (.ok (deliver pieces).bytes.toList) .error := by
  obtain ⟨schedule, rfl, hproceed⟩ := Delivery.exists_schedule_of_proceed #[] .start pieces
  have hreading := schedule.reading_run
  rw [Schedule.run, ← hproceed] at hreading
  have hbytes : (deliver (schedule.map Prod.fst)).bytes.toList =
      (Contents.read schedule.body).bytes := congrArg Reading.bytes hreading
  have herror : (deliver (schedule.map Prod.fst)).error = (Contents.read schedule.body).error :=
    congrArg Reading.error hreading
  rw [hbytes, herror]
  rfl

/-- However a body is cut up, it is read as the whole body is. -/
theorem expand_eq_deliver_cut (size : Nat) (body : List UInt8) :
    expand body = (deliver (cut size body)).error.elim
      (.ok (deliver (cut size body)).bytes.toList) .error := by
  rw [← expand_flatten, flatten_cut]

end SerialVector.Body
