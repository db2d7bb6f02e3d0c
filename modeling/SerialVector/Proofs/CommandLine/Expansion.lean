/-
One run after the other: a program is converted, and what was written is expanded.

The second run reads what the first has written, so nothing is left to be known of the files
but whether they can be read and written.  The paths may lead to the same file in any way.
-/
import SerialVector.Proofs.CommandLine.Effects
import SerialVector.Proofs.Conversion.Lossless

namespace SerialVector
namespace CommandLine

theorem expand_of_yields {input : String} {output : Option String} {noSwap : Bool}
    {maxBuffer : Option Nat} {content bytes : List UInt8} {stdout : String}
    (h : (Task.convert input output noSwap maxBuffer).Yields content bytes stdout) :
    ∃ size, (reorder (!noSwap) content .unbounded).result = .ok size ∧
      Body.expand bytes = .ok (reorder (!noSwap) content .unbounded).sink.toList := by
  cases h with
  | convert h =>
    have hexpand := expand_of_result_convert h
    exact ⟨_, hexpand⟩

/-- The first run leaves to the second what it needs, unless the files are refused. -/
theorem expansion_of_converted {σ place : Type} {store : Store σ place} {s : σ}
    {input middle : String} {output laterOutput : Option String} {noSwap : Bool}
    {maxBuffer : Option Nat} {converted expanded : Outcome × σ}
    (hconverted : (Task.convert input output noSwap maxBuffer).Course store s converted)
    (hmiddle : (Task.convert input output noSwap maxBuffer).outputPath = middle)
    (hexpanded : (Task.expand middle laterOutput).Course store converted.2 expanded)
    (hexit : converted.1.exit = 0) :
    ∃ content size, store.read s input = .ok content ∧
      (reorder (!noSwap) content .unbounded).result = .ok size ∧
      let swapped := (reorder (!noSwap) content .unbounded).sink.toList
      let path := (Task.expand middle laterOutput).outputPath
      (∀ held after, store.read converted.2 middle = .ok held →
        store.write converted.2 path swapped = .ok after → expanded.1.exit = 0) ∧
      (expanded.1.exit = 0 → (∃ held, store.read converted.2 middle = .ok held) ∧
        store.write converted.2 path swapped = .ok expanded.2) := by
  obtain ⟨content, body, hread, hyields, hwrite⟩ := hconverted.exists_of_exit hexit
  rw [hmiddle] at hwrite
  obtain ⟨size, hresult, hexpand⟩ := expand_of_yields hyields
  refine ⟨content, size, hread, hresult, ?_, ?_⟩
  · intro held after hheld hafter
    obtain rfl := Store.eq_of_read_of_write hwrite hheld
    exact hexpanded.effects.exit_iff.mpr ⟨_, _, _, after, hheld, .expand hexpand, hafter⟩
  · intro hlater
    obtain ⟨held, bytes, hheld, hyields', hwrite'⟩ := hexpanded.exists_of_exit hlater
    obtain rfl := Store.eq_of_read_of_write hwrite hheld
    obtain ⟨rfl, -⟩ := hyields'.unique (.expand hexpand)
    exact ⟨⟨_, hheld⟩, hwrite'⟩

/-- After a conversion that succeeded, the expansion of its output succeeds exactly if its own
output can be written, and gives the order of play of the program that was converted, as it
was before.  So it is on file systems in the abstract, where reading the converted file may be
refused as well.  Where both outputs are given, `middle` and `path` are the paths given. -/
theorem converted_file_expands {parse : List String → Option Task} {arguments later : List String}
    {input middle : String} {output laterOutput : Option String} {noSwap : Bool}
    {maxBuffer : Option Nat}
    (h : parse arguments = some (.convert input output noSwap maxBuffer))
    (hmiddle : (Task.convert input output noSwap maxBuffer).outputPath = middle)
    (hlater : parse later = some (.expand middle laterOutput))
    (verbosity laterVerbosity : Verbosity) :
    let path := (Task.expand middle laterOutput).outputPath
    (∀ fs : FileSystem,
      let converted := runWith parse FileSystem.disk verbosity arguments fs
      let expanded := runWith parse FileSystem.disk laterVerbosity later converted.2
      converted.1.exit = 0 → ∃ content size, fs.read input = .ok content ∧
        (reorder (!noSwap) content .unbounded).result = .ok size ∧
        let swapped := (reorder (!noSwap) content .unbounded).sink.toList
        (expanded.1.exit = 0 ↔ ∃ after, converted.2.write path swapped = .ok after) ∧
        (expanded.1.exit = 0 → expanded.2.read path = .ok swapped)) ∧
    ∀ (σ place : Type) (store : Store σ place) (s : σ),
      let converted := runWith parse store.disk verbosity arguments s
      let expanded := runWith parse store.disk laterVerbosity later converted.2
      converted.1.exit = 0 → ∃ content size, store.read s input = .ok content ∧
        (reorder (!noSwap) content .unbounded).result = .ok size ∧
        let swapped := (reorder (!noSwap) content .unbounded).sink.toList
        (expanded.1.exit = 0 ↔ (∃ held, store.read converted.2 middle = .ok held) ∧
          ∃ after, store.write converted.2 path swapped = .ok after) ∧
        (expanded.1.exit = 0 → ∃ p, store.place? expanded.2 path = some p ∧
          store.file? expanded.2 p = some swapped) := by
  intro path
  constructor
  · intro fs converted expanded hexit
    have hconverted : Task.Course FileSystem.store _ fs converted :=
      FileSystem.disk_store ▸ course_runWith FileSystem.store h verbosity
    have hexpanded : Task.Course FileSystem.store _ converted.2 expanded :=
      FileSystem.disk_store ▸ course_runWith FileSystem.store hlater laterVerbosity
    obtain ⟨content, size, hread, hresult, hsucceeds, hwritten⟩ :=
      expansion_of_converted hconverted hmiddle hexpanded hexit
    obtain ⟨-, body, -, -, hbody⟩ := hconverted.exists_of_exit hexit
    rw [hmiddle] at hbody
    refine ⟨content, size, hread, hresult, ⟨?_, ?_⟩, ?_⟩
    · intro hdone
      exact ⟨_, (hwritten hdone).2⟩
    · rintro ⟨after, hafter⟩
      exact hsucceeds _ after (FileSystem.read_of_write hbody) hafter
    · intro hdone
      exact FileSystem.read_of_write (hwritten hdone).2
  · intro σ place store s converted expanded hexit
    obtain ⟨content, size, hread, hresult, hsucceeds, hwritten⟩ :=
      expansion_of_converted (course_runWith store h verbosity) hmiddle
        (course_runWith store hlater laterVerbosity) hexit
    refine ⟨content, size, hread, hresult, ⟨?_, ?_⟩, ?_⟩
    · intro hdone
      obtain ⟨hheld, hafter⟩ := hwritten hdone
      exact ⟨hheld, _, hafter⟩
    · rintro ⟨⟨held, hheld⟩, after, hafter⟩
      exact hsucceeds held after hheld hafter
    · intro hdone
      obtain ⟨p, -, hplace, hfile, -⟩ := store.exists_of_write (hwritten hdone).2
      exact ⟨p, hplace, hfile⟩

/-- The program, its conversion and its expansion are put into one file. -/
theorem expand_in_place :
    let arguments := ["convert", "a", "-o", "./a"]
    let later := ["expand", "-o", "a", "./a"]
    let program := [0x08, 0x00, 0x00, 0x00, 0x10, 0x01, 0x12, 0x34, 0x00]
    let swapped := [0x08, 0x00, 0x10, 0x01, 0x34, 0x12, 0x00]
    let fs : FileSystem := ⟨[(["a"], .file program)]⟩
    let converted := run FileSystem.disk Verbosity.standard arguments fs
    let expanded := run FileSystem.disk Verbosity.standard later converted.2
    Task.ofArguments? arguments = some (.convert "a" (some "./a") false none) ∧
      Task.ofArguments? later = some (.expand "./a" (some "a")) ∧ converted.1.exit = 0 ∧
      expanded.1.exit = 0 ∧ expanded.2.read "a" = .ok swapped := by
  intro arguments later program swapped fs converted expanded
  have h : Task.ofArguments? arguments = some (.convert "a" (some "./a") false none) := by
    decide +kernel
  have hlater : Task.ofArguments? later = some (.expand "./a" (some "a")) := by decide +kernel
  have hconverted : converted.1.exit = 0 := by decide +kernel
  have hexpanded : expanded.1.exit = 0 := by decide +kernel
  obtain ⟨content, size, hread, -, -, hholds⟩ :=
    (converted_file_expands h rfl hlater Verbosity.standard Verbosity.standard).1 fs hconverted
  have hcontent : fs.read "a" = .ok program := by decide +kernel
  obtain rfl : program = content := Except.ok.inj (hcontent.symm.trans hread)
  have hswapped : (reorder true program .unbounded).sink.toList = swapped := by decide +kernel
  refine ⟨h, hlater, hconverted, hexpanded, ?_⟩
  rw [← hswapped]
  exact hholds hexpanded

end CommandLine
end SerialVector
