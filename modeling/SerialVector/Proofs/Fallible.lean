/-
Computations that may fail.

One step after the other succeeds or fails where one of the steps does.
-/
namespace SerialVector

variable {ε ε' α β : Type}

section Bind

variable {r : Except ε α} {f : α → Except ε β}

theorem ok_bind (a : α) (f : α → Except ε β) : (Except.ok a >>= f) = f a := rfl

theorem error_bind (e : ε) (f : α → Except ε β) : (Except.error e >>= f) = .error e := rfl

theorem exists_of_bind_eq_ok {b : β} (h : r >>= f = .ok b) : ∃ a, r = .ok a ∧ f a = .ok b := by
  cases r with
  | error e => cases h
  | ok a => exact ⟨a, rfl, h⟩

theorem exists_of_bind_eq_error {e : ε} (h : r >>= f = .error e) :
    r = .error e ∨ ∃ a, r = .ok a ∧ f a = .error e := by
  cases r with
  | error e' =>
    cases h
    exact .inl rfl
  | ok a => exact .inr ⟨a, rfl, h⟩

end Bind

section Map

variable {r : Except ε α}

theorem eq_ok_of_mapError {g : ε → ε'} {a : α} (h : r.mapError g = .ok a) : r = .ok a := by
  cases r with
  | error e => cases h
  | ok b => cases h; rfl

theorem exists_of_mapError_eq_error {g : ε → ε'} {e : ε'} (h : r.mapError g = .error e) :
    ∃ e', r = .error e' ∧ g e' = e := by
  cases r with
  | error e' => cases h; exact ⟨e', rfl, rfl⟩
  | ok a => cases h

theorem eq_error_of_map {f : α → β} {e : ε} (h : r.map f = .error e) : r = .error e := by
  cases r with
  | error e' => cases h; rfl
  | ok a => cases h

end Map

end SerialVector
