/-
The log of a run as an index of its program.

`Indexed` says, without looking at the reader, what an index is: each record names the
opcode at its offset, and the next offset follows from the length of the operands, which the
vector size in force decides.  A row of commands that is carried out leaves an index of
itself.  A run that fails, at a command that is refused or in a sink that fills up, leaves
the index of the commands in front, and names the one it failed at.
-/
import SerialVector.Proofs.Command.Phrase
import SerialVector.Proofs.Program.Played
import SerialVector.Proofs.Program.Refusal

namespace SerialVector

/-! ## What a log is an index of -/

namespace Command

def records (offset : Nat) (c : Command) : List LogRecord :=
  LogRecord.naming offset c.encode ++ c.settings

end Command

namespace Program

def records (offset : Nat) : List Command → List LogRecord
  | [] => []
  | c :: commands => c.records offset ++ records (offset + c.encode.length) commands

end Program

section Indexed

variable {xsvf rest : List UInt8} {size offset last stop : Nat} {records : List LogRecord}

end Indexed

/-! ## Runs -/

namespace Program

/-- What a conversion writes of the command that `bytes` begin with, if the sink takes it. -/
inductive Emits (swap : Bool) (size offset : Nat) : List UInt8 → List UInt8 → Prop where
  | command {c : Command} (rest : List UInt8) (h : c.WellFormed size) :
    Emits swap size offset (c.encode ++ rest) (c.translation swap)
  | complete (ignored : List UInt8) :
    Emits swap size offset (Opcode.complete.toByte :: ignored) [Opcode.complete.toByte]
  | refused {bytes written : List UInt8} {error : ConversionError} {count : Nat}
    (h : Command.Refused size offset bytes error written count) :
    Emits swap size offset bytes written

/-- A run that held `held` before the command that `bytes` begin with, and ended there.
Either the command was refused, or the sink did not take all of it. -/
inductive FailsAt (swap : Bool) (size offset : Nat) (bytes held : List UInt8) (run : Run Nat) :
    Prop where
  | refused {error : ConversionError} {part : List UInt8} {count : Nat}
    (h : Command.Refused size offset bytes error part count)
    (hresult : run.result = .error error) (hcontent : run.sink.toList = held ++ part)
    (hposition : run.position = offset + count) : FailsAt swap size offset bytes held run
  | full {whole part : List UInt8} (h : Emits swap size offset bytes whole)
    (hpart : part <+: whole) (hne : part ≠ whole)
    (hresult : run.result = .error (.sinkFull run.sink.size))
    (hcontent : run.sink.toList = held ++ part) : FailsAt swap size offset bytes held run

/-- A run over some bytes that failed at a command.  The commands in front of it are named in
the log, and it is itself if it begins with an assigned opcode. -/
def FailsIn (swap : Bool) (xsvf held : List UInt8) (run : Run Nat) : Prop :=
  ∃ commands rest, WellFormed 0 commands ∧ xsvf = encodeRow commands ++ rest ∧
    run.log = records 0 commands ++ LogRecord.naming (encodeRow commands).length rest ∧
    FailsAt swap (sizeAfter 0 commands) (encodeRow commands).length rest
      (held ++ commands.flatMap (Command.translation swap)) run

theorem failsAt_of_stopsIn {swap : Bool} {size offset : Nat} {bytes held whole : List UInt8}
    {run : Run Nat} {log : List LogRecord} (h : run.StopsIn held whole log)
    (hwhole : Emits swap size offset bytes whole) : FailsAt swap size offset bytes held run := by
  obtain ⟨part, hpart, hne, hcontent⟩ := h.content
  exact .full hwhole hpart hne h.result_eq hcontent

end Program

namespace Listing

/-- A row of commands is carried out and noted, or the run ends inside one of them. -/
theorem playFrom_row {α : Type} (swap : Bool) (commands : List Command)
    (result : Except ConversionError α) (sink : Sink) (offset : Nat) (log : Array LogRecord)
    (more : List Event) :
    let row := (entriesFrom offset commands).flatMap fun e => e.command.events swap e.offset
    (∃ grown, grown.toList = sink.toList ++ commands.flatMap (Command.translation swap) ∧
        Transcript.playFrom result sink offset log (row ++ more) =
          Transcript.playFrom result grown (offset + (Program.encodeRow commands).length)
            (log ++ Program.records offset commands) more) ∨
      ∃ front c back, commands = front ++ c :: back ∧
        (Transcript.playFrom result sink offset log (row ++ more)).StopsIn
          (sink.toList ++ front.flatMap (Command.translation swap)) (c.translation swap)
          (log.toList ++ (Program.records offset front ++
            LogRecord.naming (offset + (Program.encodeRow front).length) c.encode)) := by
  intro row
  -- Each command finds the sink and the log as the commands before it left them.
  induction commands generalizing sink offset log with
  | nil => exact .inl ⟨sink, by simp, by simp [row, entriesFrom, Program.records]⟩
  | cons c commands ih =>
    have hphrase := Command.isPhrase_events swap offset c
    have hrow : row ++ more = c.events swap offset ++
        ((entriesFrom (offset + c.encode.length) commands).flatMap
          (fun e => e.command.events swap e.offset) ++ more) := by
      simp only [row, entriesFrom, List.flatMap_cons, List.append_assoc]
    rw [hrow]
    rcases Transcript.playFrom_of_phrase result sink offset log _ hphrase with
      ⟨grown, hgrown, hplay⟩ | hstops
    · rw [Command.written_events] at hgrown
      rw [hplay, Command.consumed_events]
      rcases ih grown (offset + c.encode.length) (log ++ c.records offset) with
        ⟨last, hlast, hbehind⟩ | ⟨front, d, back, rfl, hstops⟩
      · refine .inl ⟨last, ?_, ?_⟩
        · rw [hlast, hgrown, List.flatMap_cons, List.append_assoc]
        · have hlog : log ++ c.records offset ++
                Program.records (offset + c.encode.length) commands =
              log ++ Program.records offset (c :: commands) :=
            Array.toList_inj.mp (by simp [Program.records])
          rw [Program.encodeRow_cons, List.length_append, ← Nat.add_assoc, ← hlog]
          exact hbehind
      · refine .inr ⟨c :: front, d, back, rfl, ?_⟩
        rw [hgrown, Array.toList_appendList, List.append_assoc, List.append_assoc] at hstops
        rw [List.flatMap_cons, Program.encodeRow_cons, List.length_append, ← Nat.add_assoc,
          Program.records, List.append_assoc]
        exact hstops
    · rw [Command.written_events] at hstops
      refine .inr ⟨[], c, commands, rfl, ?_⟩
      simpa [Program.records] using hstops

section Stop

variable {commands : List Command} (h : Program.WellFormed 0 commands) (swap : Bool)
  (rest : List UInt8) (sink : Sink)
include h

/-- The row of commands at the front is carried out, or the run ends inside one of them. -/
theorem play_row :
    let t := (read (Program.encodeRow commands ++ rest)).transcript swap
    (∃ grown, grown.toList = sink.toList ++ commands.flatMap (Command.translation swap) ∧
        t.play sink =
          Transcript.playFrom t.result grown (Program.encodeRow commands).length
            (Program.records 0 commands).toArray
            (eventsFrom swap (Program.sizeAfter 0 commands)
              ⟨(Program.encodeRow commands).length, rest⟩)) ∨
      ∃ front c back, commands = front ++ c :: back ∧
        (t.play sink).StopsIn (sink.toList ++ front.flatMap (Command.translation swap))
          (c.translation swap) (Program.records 0 front ++
            LogRecord.naming (Program.encodeRow front).length c.encode) := by
  intro t
  have hevents : t.events = _ := eventsFrom_append h swap 0 rest
  have hrow := playFrom_row swap commands t.result sink 0 #[]
    (eventsFrom swap (Program.sizeAfter 0 commands)
      ⟨0 + (Program.encodeRow commands).length, rest⟩)
  have hlog : (#[] : Array LogRecord) ++ Program.records 0 commands =
      (Program.records 0 commands).toArray := Array.toList_inj.mp Array.toList_appendList
  simp only [Nat.zero_add, List.nil_append, hlog] at hrow
  rw [Nat.zero_add] at hevents
  rw [Transcript.play, hevents]
  exact hrow

/-- Everything is carried out up to what stands last, or some command fails. -/
theorem play_cases {last : List Event}
    (hlast : eventsFrom swap (Program.sizeAfter 0 commands)
      ⟨(Program.encodeRow commands).length, rest⟩ = last)
    (hphrase : Event.IsPhrase (LogRecord.naming (Program.encodeRow commands).length rest) [] last)
    (hemits : Program.Emits swap (Program.sizeAfter 0 commands)
      (Program.encodeRow commands).length rest (Event.written last)) :
    let t := (read (Program.encodeRow commands ++ rest)).transcript swap
    (∃ grown, grown.toList =
          sink.toList ++ commands.flatMap (Command.translation swap) ++ Event.written last ∧
        t.play sink =
          ⟨t.result, grown, (Program.encodeRow commands).length + Event.consumed last,
            Program.records 0 commands ++
              LogRecord.naming (Program.encodeRow commands).length rest⟩) ∨
      Program.FailsIn swap (Program.encodeRow commands ++ rest) sink.toList (t.play sink) := by
  intro t
  rcases play_row h swap rest sink with ⟨grown, hgrown, hplay⟩ | ⟨front, c, back, rfl, hstops⟩
  · rw [hlast] at hplay
    have hcases := Transcript.playFrom_of_last t.result grown (Program.encodeRow commands).length
      (Program.records 0 commands).toArray hphrase
    rw [hgrown] at hcases
    rcases hcases with ⟨whole, hwhole, hrun⟩ | hstops
    · exact .inl ⟨whole, hwhole, hplay.trans hrun⟩
    · rw [← hplay] at hstops
      exact .inr ⟨commands, rest, h, rfl, hstops.log_eq, Program.failsAt_of_stopsIn hstops hemits⟩
  · obtain ⟨hfront, hc, -⟩ := Program.wellFormed_append.mp h
    refine .inr ⟨front, c.encode ++ (Program.encodeRow back ++ rest), hfront, ?_, hstops.log_eq,
      Program.failsAt_of_stopsIn hstops (.command _ hc)⟩
    simp [Program.encodeRow]

end Stop

end Listing

-- The byte behind the end of the program is counted and not looked at.
example :
    (reorder true [0x08, 0, 0, 0, 9, 0x0C, 1, 2, 0x00, 0xFF] .unbounded).log =
      [.command .sdrSize 0, .sizeSet 9, .command .sdrB 5, .command .complete 8, .ignored 1 9,
        .reordered 9 7 0] := by
  decide +kernel

end SerialVector
