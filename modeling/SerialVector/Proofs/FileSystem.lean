/-
Files that are written.

A write that succeeds puts one file at the place its path leads to and changes nothing else.
The path still leads there afterwards, since each step of a walk starts at a directory, and
there was none at the place where the file was put.
-/
import SerialVector.FileSystem
import SerialVector.Proofs.Fallible

namespace SerialVector
namespace FileSystem

variable {fs : FileSystem}

/-! ## Nodes at places -/

section Nodes

variable {place other : List String}

theorem node?_of_ne_nil (h : place ≠ []) : fs.node? place = fs.nodes.lookup place := by
  cases place with
  | nil => exact absurd rfl h
  | cons name names => rfl

theorem ne_nil_of_not_directory (h : fs.node? place ≠ some .directory) : place ≠ [] := by
  rintro rfl
  exact h rfl

theorem lookup_filter_of_ne (h : other ≠ place) (nodes : List (List String × Node)) :
    (nodes.filter fun entry => entry.1 ≠ place).lookup other = nodes.lookup other := by
  induction nodes with
  | nil => rfl
  | cons entry nodes ih =>
    obtain ⟨key, node⟩ := entry
    by_cases hkey : key = place
    · rw [List.filter_cons_of_neg (by simp [hkey]), ih, List.lookup_cons, hkey,
        beq_false_of_ne h]
    · rw [List.filter_cons_of_pos (by simp [hkey]), List.lookup_cons, List.lookup_cons, ih]

theorem node?_put_self (h : place ≠ []) (node : Node) :
    (fs.put place node).node? place = some node := by
  rw [node?_of_ne_nil h, put, List.lookup_cons_self]

theorem node?_put_of_ne (h : other ≠ place) (node : Node) :
    (fs.put place node).node? other = fs.node? other := by
  cases other with
  | nil => rfl
  | cons name names =>
    have hne : name :: names ≠ [] := List.cons_ne_nil name names
    rw [node?_of_ne_nil hne, node?_of_ne_nil hne, put, List.lookup_cons, beq_false_of_ne h]
    exact lookup_filter_of_ne h fs.nodes

end Nodes

/-! ## Walks -/

/-- Each step starts at a directory. -/
theorem node?_of_step {name : String} {names : List String} {q : Place}
    (h : fs.step name (.inside names) = .ok q) : fs.node? names = some .directory := by
  cases hnode : fs.node? names with
  | none =>
    simp only [step, hnode] at h
    cases h
  | some node =>
    cases node with
    | directory => rfl
    | file bytes =>
      simp only [step, hnode] at h
      cases h

theorem eq_of_step_dot {p q : Place} (h : fs.step "." p = .ok q) : q = p := by
  cases p with
  | outside =>
    cases h
    rfl
  | inside names =>
    simp only [step, node?_of_step h, if_true] at h
    cases h
    rfl

section Walks

variable {place : List String} (h : fs.node? place ≠ some .directory) (node : Node)
include h

theorem step_put {name : String} {p q : Place} (hstep : fs.step name p = .ok q) :
    (fs.put place node).step name p = .ok q := by
  cases p with
  | outside => exact hstep
  | inside names =>
    have hnames : names ≠ place := by
      rintro rfl
      exact h (node?_of_step hstep)
    simp only [step, node?_put_of_ne hnames]
    exact hstep

theorem foldlM_step_put {names : List String} {p q : Place}
    (hwalk : names.foldlM (fun place name => fs.step name place) p = .ok q) :
    names.foldlM (fun place' name => (fs.put place node).step name place') p = .ok q := by
  induction names generalizing p with
  | nil => exact hwalk
  | cons name names ih =>
    rw [List.foldlM_cons] at hwalk ⊢
    obtain ⟨next, hstep, hrest⟩ := exists_of_bind_eq_ok hwalk
    rw [step_put h node hstep]
    exact ih hrest

theorem walk_put {path : String} {q : Place} (hwalk : fs.walk path = .ok q) :
    (fs.put place node).walk path = .ok q := by
  unfold walk follow at hwalk ⊢
  cases herror : pathError? path with
  | some error =>
    simp only [herror] at hwalk
    cases hwalk
  | none =>
    simp only [herror] at hwalk ⊢
    exact foldlM_step_put h node hwalk

end Walks

/-! ## Reads and writes -/

section Access

variable {path : String} {bytes : List UInt8}

theorem read_of_walk {place : List String} (hpath : PathName.asksDirectory path = false)
    (hwalk : fs.walk path = .ok (.inside place)) (hnode : fs.node? place = some (.file bytes)) :
    fs.read path = .ok bytes := by
  rw [read, hwalk, hpath]
  simp [bind, Except.bind, pure, Except.pure, hnode]

/-- A file that is read is at the place its path leads to. -/
theorem exists_of_read_ok (h : fs.read path = .ok bytes) :
    ∃ place, fs.walk path = .ok (.inside place) ∧ fs.node? place = some (.file bytes) := by
  unfold read at h
  obtain ⟨found, hwalk, h⟩ := exists_of_bind_eq_ok h
  cases hpath : PathName.asksDirectory path with
  | true =>
    simp only [hpath, if_true] at h
    obtain ⟨directory, hstep, h⟩ := exists_of_bind_eq_ok h
    rw [eq_of_step_dot hstep] at h hstep
    cases found with
    | outside => cases h
    | inside names =>
      simp only [node?_of_step hstep] at h
      cases h
  | false =>
    simp only [hpath, Bool.false_eq_true, if_false] at h
    cases found with
    | outside => cases h
    | inside names =>
      refine ⟨names, hwalk, ?_⟩
      simp only [pure_bind] at h
      cases hnode : fs.node? names with
      | none =>
        simp only [hnode] at h
        cases h
      | some node =>
        simp only [hnode] at h
        cases node with
        | directory => cases h
        | file content =>
          cases h
          rfl

/-- What a write changes, if it changes anything. -/
theorem exists_of_write_ok {after : FileSystem} (h : fs.write path bytes = .ok after) :
    ∃ place, PathName.asksDirectory path = false ∧ fs.walk path = .ok (.inside place) ∧
      fs.node? place ≠ some .directory ∧ after = fs.put place (.file bytes) := by
  unfold write at h
  cases hpath : PathName.asksDirectory path with
  | true =>
    rw [hpath, if_pos rfl] at h
    obtain ⟨start, -, h⟩ := exists_of_bind_eq_ok h
    obtain ⟨found, -, h⟩ := exists_of_bind_eq_ok h
    cases h
  | false =>
    rw [hpath, if_neg Bool.false_ne_true] at h
    obtain ⟨found, hwalk, h⟩ := exists_of_bind_eq_ok h
    cases found with
    | outside => cases h
    | inside place =>
      have hput : fs.node? place ≠ some .directory ∧
          fs.put place (.file bytes) = after := by
        cases hnode : fs.node? place with
        | none =>
          simp only [hnode, Except.ok.injEq] at h
          exact ⟨by simp, h⟩
        | some node =>
          simp only [hnode] at h
          cases node with
          | directory => cases h
          | file content => exact ⟨by simp, Except.ok.inj h⟩
      exact ⟨place, rfl, hwalk, hput.1, hput.2.symm⟩

/-- A file that was written reads as it was written. -/
theorem read_of_write {after : FileSystem} (h : fs.write path bytes = .ok after) :
    after.read path = .ok bytes := by
  obtain ⟨place, hpath, hwalk, hplace, rfl⟩ := exists_of_write_ok h
  exact read_of_walk hpath (walk_put hplace _ hwalk)
    (node?_put_self (ne_nil_of_not_directory hplace) _)

end Access

end FileSystem

/-! ## File systems in the abstract -/

/-- A file system of which little is known.  It may refuse whatever it likes, but a read
changes nothing, and a write that is not refused replaces one file whole. -/
structure Store (σ place : Type) where
  /-- Where a path leads. -/
  place? : σ → String → Option place
  file? : σ → place → Option (List UInt8)
  read : σ → String → Except FileError (List UInt8)
  write : σ → String → List UInt8 → Except FileError σ
  exists_of_read : ∀ {s : σ} {path : String} {bytes : List UInt8}, read s path = .ok bytes →
    ∃ p, place? s path = some p ∧ file? s p = some bytes
  exists_of_write : ∀ {s after : σ} {path : String} {bytes : List UInt8},
    write s path bytes = .ok after →
      ∃ p, place? s path = some p ∧ place? after path = some p ∧ file? after p = some bytes ∧
        ∀ other, other ≠ p → file? after other = file? s other

namespace Store

variable {σ place : Type} (store : Store σ place)

def disk : Disk (StateM σ) where
  read path := fun s => (store.read s path, s)
  write path bytes := fun s =>
    match store.write s path bytes with
    | .ok after => (.ok (), after)
    | .error error => (.error error, s)

variable {s : σ} {path : String}

theorem disk_read : store.disk.read path s = (store.read s path, s) := rfl

theorem disk_write_of_ok {after : σ} {bytes : List UInt8}
    (h : store.write s path bytes = .ok after) :
    store.disk.write path bytes s = (.ok (), after) := by
  simp only [disk, h]

theorem disk_write_of_error {error : FileError} {bytes : List UInt8}
    (h : store.write s path bytes = .error error) :
    store.disk.write path bytes s = (.error error, s) := by
  simp only [disk, h]

/-- A file that can be read after it was written is read as it was written. -/
theorem eq_of_read_of_write {store : Store σ place} {after : σ} {bytes held : List UInt8}
    (hwrite : store.write s path bytes = .ok after) (hread : store.read after path = .ok held) :
    held = bytes := by
  obtain ⟨p, -, hafter, hfile, -⟩ := store.exists_of_write hwrite
  obtain ⟨p', hplace, hheld⟩ := store.exists_of_read hread
  obtain rfl : p = p' := Option.some.inj (hafter.symm.trans hplace)
  exact Option.some.inj (hheld.symm.trans hfile)

end Store

namespace FileSystem

def place? (fs : FileSystem) (path : String) : Option (List String) :=
  match fs.walk path with
  | .ok (.inside place) => some place
  | _ => none

def file? (fs : FileSystem) (place : List String) : Option (List UInt8) :=
  match fs.node? place with
  | some (.file bytes) => some bytes
  | _ => none

section

variable {fs : FileSystem} {place : List String} {path : String} {bytes : List UInt8}

theorem place?_of_walk (h : fs.walk path = .ok (.inside place)) : fs.place? path = some place := by
  simp only [place?, h]

theorem file?_of_node? (h : fs.node? place = some (.file bytes)) : fs.file? place = some bytes := by
  simp only [file?, h]

end

def store : Store FileSystem (List String) where
  place? := place?
  file? := file?
  read := read
  write := write
  exists_of_read := by
    intro fs path bytes h
    obtain ⟨place, hwalk, hnode⟩ := exists_of_read_ok h
    exact ⟨place, place?_of_walk hwalk, file?_of_node? hnode⟩
  exists_of_write := by
    intro fs after path bytes h
    obtain ⟨place, -, hwalk, hplace, rfl⟩ := exists_of_write_ok h
    have hself := fs.node?_put_self (ne_nil_of_not_directory hplace) (.file bytes)
    refine ⟨place, place?_of_walk hwalk, place?_of_walk (walk_put hplace _ hwalk),
      file?_of_node? hself, ?_⟩
    intro other hother
    rw [file?, file?, node?_put_of_ne hother]

theorem disk_store : store.disk = disk := by
  have hwrite : store.disk.write = disk.write := by
    funext path bytes fs
    cases h : fs.write path bytes with
    | ok after =>
      simp only [disk, h]
      exact store.disk_write_of_ok h
    | error error =>
      simp only [disk, h]
      exact store.disk_write_of_error h
  exact congrArg (Disk.mk disk.read) hwrite

end FileSystem

end SerialVector
