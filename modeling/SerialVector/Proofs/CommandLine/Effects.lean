/-
What a command line does to files.

A run reads its input whole, makes the output of it and only then writes, in one go.  So a
run that fails has changed nothing, and one that succeeds has changed the one file it
writes, be that the input itself.  `Course` lists the ways a run can go.

How a command line is taken apart is a parameter of all this.  What a task asks for, on the
other hand, is said here in full, without the functions that carry it out.  Standard output
is taken to work.
-/
import SerialVector.CommandLine.Run
import SerialVector.Proofs.FileSystem

namespace SerialVector

/-! ## Running step by step -/

theorem bind_apply {σ α β : Type} (x : StateM σ α) (f : α → StateM σ β) (s : σ) :
    (x >>= f) s = f (x s).1 (x s).2 := rfl

namespace CommandLine

/-! ## What a task asks for -/

namespace Task

def input : Task → String
  | convert input .. => input
  | expand input _ => input

/-- Where the output goes: to the path that is given, or else to that of the input with
another extension. -/
def outputPath : Task → String
  | convert _ (some path) _ _ => path
  | convert input none _ _ => PathName.withExtension input "csvf"
  | expand _ (some path) => path
  | expand input none => PathName.withExtension input "swapped"

theorem target_convert (input : String) (output : Option String) (noSwap : Bool)
    (maxBuffer : Option Nat) :
    target input output "csvf" = (convert input output noSwap maxBuffer).outputPath := by
  cases output <;> rfl

theorem target_expand (input : String) (output : Option String) :
    target input output "swapped" = (expand input output).outputPath := by
  cases output <;> rfl

/-- What a task makes of its input: the bytes that it writes, and what it prints. -/
inductive Yields : Task → List UInt8 → List UInt8 → String → Prop where
  | convert {input : String} {output : Option String} {noSwap : Bool} {maxBuffer : Option Nat}
    {content : List UInt8} {conversion : Conversion}
    (h : (SerialVector.convert
      { swap := !noSwap, capacityHint := 0x20000, bufferLimit := maxBuffer } content).result =
        .ok conversion) :
    Yields (convert input output noSwap maxBuffer) content conversion.body
      s!"Max buffer size: {conversion.bufferSize}\n"
  | expand {input : String} {output : Option String} {content bytes : List UInt8}
    (h : Body.expand content = .ok bytes) : Yields (expand input output) content bytes ""

/-- The four ways a run goes. -/
inductive Course {σ place : Type} (store : Store σ place) (task : Task) (s : σ) :
    Outcome × σ → Prop where
  | unread {error : FileError} {log : List LogLine} {dump : String}
    (hread : store.read s task.input = .error error) :
    Course store task s (failure log dump, s)
  | unmade {content : List UInt8} {log : List LogLine} {dump : String}
    (hread : store.read s task.input = .ok content)
    (hnone : ∀ bytes stdout, ¬ task.Yields content bytes stdout) :
    Course store task s (failure log dump, s)
  | unwritten {content bytes : List UInt8} {stdout : String} {error : FileError}
    {log : List LogLine} {dump : String} (hread : store.read s task.input = .ok content)
    (hyields : task.Yields content bytes stdout)
    (hwrite : store.write s task.outputPath bytes = .error error) :
    Course store task s (failure log dump, s)
  | done {content bytes : List UInt8} {stdout : String} {after : σ} {log : List LogLine}
    (hread : store.read s task.input = .ok content) (hyields : task.Yields content bytes stdout)
    (hwrite : store.write s task.outputPath bytes = .ok after) :
    Course store task s (success log stdout, after)

end Task

section Run

variable {σ place : Type} (store : Store σ place) {s : σ}

theorem convertFile_of_unread {config : Config} {path : String} {cause : FileError}
    (hhint : config.hintFits = true) (hread : store.read s path = .error cause) :
    convertFile store.disk config path s =
      (⟨.error (.fileUnreadable path cause), []⟩, s) := by
  rw [convertFile, if_pos hhint, bind_apply, store.disk_read, hread]
  rfl

theorem convertFile_of_read {config : Config} {path : String} {content : List UInt8}
    (hhint : config.hintFits = true) (hread : store.read s path = .ok content) :
    convertFile store.disk config path s =
      let report := convert config content
      ({ report with log := .loaded content.length path :: report.log }, s) := by
  rw [convertFile, if_pos hhint, bind_apply, store.disk_read, hread]
  rfl

/-- The end of every run: what was made is written, and that it was is said. -/
theorem course_of_write {task : Task} {content bytes : List UInt8} {stdout : String}
    {f : Except FileError Unit → StateM σ Outcome}
    (hread : store.read s task.input = .ok content) (hyields : task.Yields content bytes stdout)
    (hfailed : ∀ error, ∃ log dump, f (.error error) = pure (failure log dump))
    (hdone : ∃ log, f (.ok ()) = pure (success log stdout)) :
    task.Course store s ((store.disk.write task.outputPath bytes >>= f) s) := by
  rw [bind_apply]
  cases hwrite : store.write s task.outputPath bytes with
  | error error =>
    obtain ⟨log, dump, hlog⟩ := hfailed error
    rw [store.disk_write_of_error hwrite, hlog]
    exact .unwritten hread hyields hwrite
  | ok after =>
    obtain ⟨log, hlog⟩ := hdone
    rw [store.disk_write_of_ok hwrite, hlog]
    exact .done hread hyields hwrite

theorem course_convert (input : String) (output : Option String) (noSwap : Bool)
    (maxBuffer : Option Nat) :
    Task.Course store (.convert input output noSwap maxBuffer) s
      (runConvert store.disk (Task.config noSwap maxBuffer) input (target input output "csvf")
        s) := by
  have hhint : (Task.config noSwap maxBuffer).hintFits = true := rfl
  rw [Task.target_convert input output noSwap maxBuffer, runConvert, bind_apply]
  cases hread : store.read s input with
  | error cause =>
    rw [convertFile_of_unread store hhint hread]
    exact .unread hread
  | ok content =>
    rw [convertFile_of_read store hhint hread]
    cases hresult : (convert (Task.config noSwap maxBuffer) content).result with
    | error error =>
      refine .unmade hread ?_
      intro bytes stdout hyields
      cases hyields with
      | convert h => cases hresult.symm.trans h
    | ok conversion =>
      exact course_of_write store hread (.convert hresult) (fun error => ⟨_, _, rfl⟩) ⟨_, rfl⟩

theorem course_expand (input : String) (output : Option String) :
    Task.Course store (.expand input output) s
      (runExpand store.disk input (target input output "swapped") s) := by
  rw [Task.target_expand, runExpand, bind_apply, store.disk_read]
  cases hread : store.read s input with
  | error cause => exact .unread hread
  | ok content =>
    cases hresult : Body.expand content with
    | error error =>
      simp only [hresult]
      refine .unmade hread ?_
      intro bytes stdout hyields
      cases hyields with
      | expand h => cases hresult.symm.trans h
    | ok bytes =>
      simp only [hresult]
      exact course_of_write store hread (.expand hresult) (fun error => ⟨_, _, rfl⟩) ⟨_, rfl⟩

/-- What is logged has no part in how a run goes. -/
theorem Task.Course.logging {task : Task} {run : Outcome × σ} (h : task.Course store s run)
    (log : List LogLine) : task.Course store s ({ run.1 with log := log }, run.2) := by
  cases h with
  | unread hread => exact .unread hread
  | unmade hread hnone => exact .unmade hread hnone
  | unwritten hread hyields hwrite => exact .unwritten hread hyields hwrite
  | done hread hyields hwrite => exact .done hread hyields hwrite

theorem course_task (task : Task) : task.Course store s (task.run store.disk s) := by
  cases task with
  | convert input output noSwap maxBuffer =>
    exact (course_convert store input output noSwap maxBuffer).logging store _
  | expand input output => exact (course_expand store input output).logging store _

theorem course_runWith {parse : List String → Option Task} {arguments : List String} {task : Task}
    (h : parse arguments = some task) (verbosity : Verbosity) :
    task.Course store s (runWith parse store.disk verbosity arguments s) := by
  unfold runWith
  simp only [h]
  exact (course_task store task).logging store _

end Run

/-! ## What a run leaves -/

/-- Nothing is made of one content in two ways. -/
theorem Task.Yields.unique {task : Task} {content first second : List UInt8}
    {firstStdout secondStdout : String} (h : task.Yields content first firstStdout)
    (h' : task.Yields content second secondStdout) :
    first = second ∧ firstStdout = secondStdout := by
  cases h with
  | convert h =>
    cases h' with
    | convert h' =>
      cases Except.ok.inj (h.symm.trans h')
      exact ⟨rfl, rfl⟩
  | expand h =>
    cases h' with
    | expand h' => exact ⟨Except.ok.inj (h.symm.trans h'), rfl⟩

/-- What a run that succeeds has read, made and written. -/
theorem Task.Course.exists_of_exit {σ place : Type} {store : Store σ place} {task : Task} {s : σ}
    {run : Outcome × σ} (h : task.Course store s run) (hexit : run.1.exit = 0) :
    ∃ content bytes, store.read s task.input = .ok content ∧
      task.Yields content bytes run.1.stdout ∧
      store.write s task.outputPath bytes = .ok run.2 := by
  cases h with
  | done hread hyields hwrite => exact ⟨_, _, hread, hyields, hwrite⟩
  | _ => cases hexit

/-- What a run of a task gives, and what it leaves of the file system it began in. -/
structure Effects {σ place : Type} (store : Store σ place) (task : Task) (s : σ)
    (run : Outcome × σ) : Prop where
  /-- A run that fails changes nothing and prints nothing. -/
  failed : run.1.exit ≠ 0 → run.2 = s ∧ run.1.stdout = ""
  /-- A run that succeeds puts what the task makes of the input at the output path, and
  changes no other file. -/
  done : run.1.exit = 0 → ∃ content bytes p, store.read s task.input = .ok content ∧
    task.Yields content bytes run.1.stdout ∧ store.place? s task.outputPath = some p ∧
      store.place? run.2 task.outputPath = some p ∧ store.file? run.2 p = some bytes ∧
        ∀ other, other ≠ p → store.file? run.2 other = store.file? s other
  /-- It succeeds where the input can be read, something is made of it, and that can be
  written. -/
  exit_iff : run.1.exit = 0 ↔ ∃ content bytes stdout after,
    store.read s task.input = .ok content ∧ task.Yields content bytes stdout ∧
      store.write s task.outputPath bytes = .ok after

theorem Task.Course.effects {σ place : Type} {store : Store σ place} {task : Task} {s : σ}
    {run : Outcome × σ} (h : task.Course store s run) : Effects store task s run where
  failed := by
    intro hexit
    cases h with
    | unread hread => exact ⟨rfl, rfl⟩
    | unmade hread hnone => exact ⟨rfl, rfl⟩
    | unwritten hread hyields hwrite => exact ⟨rfl, rfl⟩
    | done hread hyields hwrite => exact absurd rfl hexit
  done := by
    intro hexit
    obtain ⟨content, bytes, hread, hyields, hwrite⟩ := h.exists_of_exit hexit
    obtain ⟨p, hplace, hafter, hfile, hothers⟩ := store.exists_of_write hwrite
    exact ⟨content, bytes, p, hread, hyields, hplace, hafter, hfile, hothers⟩
  exit_iff := by
    constructor
    · intro hexit
      obtain ⟨content, bytes, hread, hyields, hwrite⟩ := h.exists_of_exit hexit
      exact ⟨content, bytes, _, _, hread, hyields, hwrite⟩
    · rintro ⟨content, bytes, stdout, after, hread', hyields', hwrite'⟩
      cases h with
      | unread hread => cases hread.symm.trans hread'
      | unmade hread hnone =>
        cases hread.symm.trans hread'
        exact absurd hyields' (hnone bytes stdout)
      | unwritten hread hyields hwrite =>
        cases hread.symm.trans hread'
        obtain ⟨rfl, -⟩ := hyields.unique hyields'
        cases hwrite.symm.trans hwrite'
      | done hread hyields hwrite => rfl

/-- A command line that fails leaves all files as they were and prints nothing, and one that
succeeds changes the file at its output path alone, which may be its input.  It is all one how
command lines are taken apart. -/
theorem run_changes_output_alone {parse : List String → Option Task} {arguments : List String}
    {task : Task} (h : parse arguments = some task) (verbosity : Verbosity) :
    (∀ fs : FileSystem,
      Effects FileSystem.store task fs (runWith parse FileSystem.disk verbosity arguments fs)) ∧
    ∀ (σ place : Type) (store : Store σ place) (s : σ),
      Effects store task s (runWith parse store.disk verbosity arguments s) := by
  constructor
  · intro fs
    rw [← FileSystem.disk_store]
    exact (course_runWith FileSystem.store h verbosity).effects
  · intro σ place store s
    exact (course_runWith store h verbosity).effects

/-- A command line and the task it stands for, the effects of that and what is seen of them: the
exit code, what is printed and the files that there are then. -/
structure RunsTo (fs : FileSystem) (arguments : List String) (task : Task) (exit : Nat)
    (stdout : String) (files : List (String × List UInt8)) : Prop where
  parsed : Task.ofArguments? arguments = some task
  effects : Effects FileSystem.store task fs
    (run FileSystem.disk Verbosity.standard arguments fs)
  seen : let ran := run FileSystem.disk Verbosity.standard arguments fs
    (ran.1.exit, ran.1.stdout, ran.2.files) = (exit, stdout, files)

/-- Output goes next to the input, into its place or to another file, in each case once it is
made and can be written. -/
theorem runs_leave_their_output :
    let program := [0x08, 0x00, 0x00, 0x00, 0x10, 0x01, 0x12, 0x34, 0x00]
    let swapped := [0x08, 0x00, 0x10, 0x01, 0x34, 0x12, 0x00]
    let body := [0x00, 0x06, 0x08, 0x00, 0x10, 0x01, 0x34, 0x12, 0x01]
    let unswapped := [0x00, 0x06, 0x08, 0x00, 0x10, 0x01, 0x12, 0x34, 0x01]
    let fs : FileSystem := ⟨[(["d"], .directory), (["d", "a.xsvf"], .file program),
      (["b.csvf"], .file body)]⟩
    RunsTo fs ["convert", "d/a.xsvf"] (.convert "d/a.xsvf" none false none) 0
        "Max buffer size: 2\n" [("d/a.csvf", body), ("d/a.xsvf", program), ("b.csvf", body)] ∧
      RunsTo fs ["convert", "d/a.xsvf", "-o", "d/./a.xsvf"]
        (.convert "d/a.xsvf" (some "d/./a.xsvf") false none) 0
        "Max buffer size: 2\n" [("d/a.xsvf", body), ("b.csvf", body)] ∧
      RunsTo fs ["convert", "--no-swap", "-m", "2", "-o", "b.csvf", "d/a.xsvf"]
        (.convert "d/a.xsvf" (some "b.csvf") true (some 2)) 0
        "Max buffer size: 2\n" [("b.csvf", unswapped), ("d/a.xsvf", program)] ∧
      RunsTo fs ["convert", "-m", "1", "-o", "b.csvf", "d/a.xsvf"]
        (.convert "d/a.xsvf" (some "b.csvf") false (some 1)) 1
        "" [("d/a.xsvf", program), ("b.csvf", body)] ∧
      RunsTo fs ["expand", "b.csvf"] (.expand "b.csvf" none) 0
        "" [("b.swapped", swapped), ("d/a.xsvf", program), ("b.csvf", body)] ∧
      RunsTo fs ["expand", "b.csvf", "-o", "e/b"] (.expand "b.csvf" (some "e/b")) 1
        "" [("d/a.xsvf", program), ("b.csvf", body)] := by
  intro program swapped body unswapped fs
  have leaves {arguments : List String} {task : Task} {exit : Nat} {stdout : String}
      {files : List (String × List UInt8)} (h : Task.ofArguments? arguments = some task)
      (hseen : let ran := run FileSystem.disk Verbosity.standard arguments fs
        (ran.1.exit, ran.1.stdout, ran.2.files) = (exit, stdout, files)) :
      RunsTo fs arguments task exit stdout files :=
    ⟨h, (run_changes_output_alone h Verbosity.standard).1 fs, hseen⟩
  refine ⟨?_, ?_, ?_, ?_, ?_, ?_⟩
  all_goals exact leaves (by decide +kernel) (by decide +kernel)

end CommandLine
end SerialVector
