namespace CycleChart

variable {ε δ α β : Type}

theorem bind_eq_ok {x : Except ε α} {f : α → Except ε β} {b : β} (h : x >>= f = .ok b) :
    ∃ a, x = .ok a ∧ f a = .ok b := by
  cases x with
  | error e => cases h
  | ok a => exact ⟨a, rfl, h⟩

theorem bind_eq_error {x : Except ε α} {f : α → Except ε β} {e : ε} (h : x >>= f = .error e) :
    x = .error e ∨ ∃ a, x = .ok a ∧ f a = .error e := by
  cases x with
  | error e =>
    cases h
    exact .inl rfl
  | ok a => exact .inr ⟨a, rfl, h⟩

theorem mapError_ok (f : ε → δ) (a : α) : (Except.ok a : Except ε α).mapError f = .ok a := rfl

theorem mapError_error (f : ε → δ) (e : ε) : (Except.error e : Except ε α).mapError f = .error (f e) := rfl

theorem toOption_map (f : α → β) (x : Except ε α) : (x.map f).toOption = x.toOption.map f := by
  cases x <;> rfl

theorem eq_ok_of_toOption {x : Except ε α} {a : α} (h : x.toOption = some a) : x = .ok a := by
  cases x with
  | error e => cases h
  | ok b =>
    cases h
    rfl

theorem exists_error_of_toOption {x : Except ε α} (h : x.toOption = none) : ∃ e, x = .error e := by
  cases x with
  | error e => exact ⟨e, rfl⟩
  | ok a => cases h

/-- The error in place of a result. -/
def errorOf : Except ε α → Option ε
  | .error e => some e
  | .ok _ => none

theorem eq_error_of_errorOf {x : Except ε α} {e : ε} (h : errorOf x = some e) : x = .error e := by
  cases x with
  | error e' =>
    cases h
    rfl
  | ok a => cases h

/-! Actions that change a state and may fail. -/

section

variable {S : Type} {s s' : S}

theorem run_then (x : ExceptT ε (StateM S) α) (f : α → ExceptT ε (StateM S) β) (s : S) :
    (x >>= f).run.run s =
      match x.run.run s with
      | (.ok a, t) => (f a).run.run t
      | (.error e, t) => (.error e, t) := by
  apply (StateT.run_bind x.run (ExceptT.bindCont f) s).trans
  rcases x.run.run s with ⟨e | a, t⟩ <;> rfl

theorem run_lift (x : StateM S α) (s : S) :
    (x : ExceptT ε (StateM S) α).run.run s = (.ok (x.run s).1, (x.run s).2) := rfl

theorem exists_of_run_bind {x : StateM S α} {f : α → StateM S β} {r : β × S} (h : (x >>= f).run s = r) :
    ∃ a t, x.run s = (a, t) ∧ (f a).run t = r := ⟨_, _, rfl, h⟩

theorem exists_of_run_then {x : ExceptT ε (StateM S) α} {f : α → ExceptT ε (StateM S) β} {b : β}
    (h : (x >>= f).run.run s = (.ok b, s')) :
    ∃ a t, x.run.run s = (.ok a, t) ∧ (f a).run.run t = (.ok b, s') := by
  rw [run_then] at h
  split at h
  · rename_i a t first
    exact ⟨a, t, first, h⟩
  · cases h

theorem exists_of_run_lift {x : StateM S α} {a : α} (h : (x : ExceptT ε (StateM S) α).run.run s = (.ok a, s')) :
    x.run s = (a, s') := by
  rw [run_lift] at h
  cases h
  rfl

end

end CycleChart
