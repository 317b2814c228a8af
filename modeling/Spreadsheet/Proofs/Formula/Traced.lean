import Spreadsheet.Formula.Traced

/-!
# Laws of traced outcomes

Traced outcomes form a monad, and the outcome of two computations in turn can be taken apart. So can
a plain outcome under a function.

## Main statements

* `Traced.bind_outcome_eq_ok`, `Traced.bind_outcome_eq_error` — how a bind succeeds and fails.
* `Traced.lookups_bind_of_ok`, `Traced.lookups_bind_of_error` — what a bind looks up.
* `Traced.bind_congr_of_outcome` — when two binds of one computation are equal.
-/

namespace Spreadsheet

/-! ## Plain outcomes -/

section Plain

variable {ε α β : Type} {r : Except ε α} {f : α → β}

theorem exists_of_map_eq_ok {b : β} (h : r.map f = .ok b) : ∃ a, r = .ok a ∧ f a = b := by
  cases r with
  | error e => cases h
  | ok a => exact ⟨a, rfl, Except.ok.inj h⟩

theorem eq_error_of_map_eq_error {e : ε} (h : r.map f = .error e) : r = .error e := by
  cases r with
  | error e' => exact congrArg _ (Except.error.inj h)
  | ok a => cases h

theorem exists_of_bind_eq_ok {g : α → Except ε β} {b : β} (h : r >>= g = .ok b) :
    ∃ a, r = .ok a ∧ g a = .ok b := by
  cases r with
  | error e => cases h
  | ok a => exact ⟨a, rfl, h⟩

theorem eq_error_of_bind_eq_error {g : α → Except ε β} {e : ε} (h : r >>= g = .error e) :
    r = .error e ∨ ∃ a, r = .ok a ∧ g a = .error e := by
  cases r with
  | error e' => exact .inl (congrArg _ (Except.error.inj h))
  | ok a => exact .inr ⟨a, rfl, h⟩

/-- Two outcomes that differ only in what an error is mapped to. -/
theorem eq_or_error_of_mapError_eq {ε' : Type} {r r' : Except ε α} {g : ε → ε'}
    (h : r.mapError g = r'.mapError g) :
    r = r' ∨ ∃ e e', r = .error e ∧ r' = .error e' ∧ g e = g e' := by
  cases r with
  | error e =>
    cases r' with
    | error e' => exact .inr ⟨e, e', rfl, rfl, Except.error.inj h⟩
    | ok a => cases h
  | ok a =>
    cases r' with
    | error e' => cases h
    | ok b => exact .inl (congrArg _ (Except.ok.inj h))

end Plain

/-! ## Traced outcomes -/

namespace Traced

variable {α β : Type}

theorem bind_eq_andThen (x : Traced α) (f : α → Traced β) : x >>= f = x.andThen f :=
  rfl

instance : LawfulMonad Traced := .mk' Traced
  (by
    rintro α ⟨lookups, e | a⟩
    · rfl
    · show (⟨lookups ++ [], .ok a⟩ : Traced α) = _
      rw [List.append_nil])
  (fun a f => rfl)
  (by
    rintro α β γ ⟨lookups, e | a⟩ f g
    · rfl
    · simp only [bind_eq_andThen, andThen]
      cases (f a).outcome <;> simp)

/-- Plain outcomes in turn are traced without lookups. -/
theorem ofExcept_bind (x : Except Error α) (f : α → Except Error β) :
    (ofExcept (x >>= f) : Traced β) = ofExcept x >>= fun a => ofExcept (f a) := by
  cases x <;> rfl

@[simp] theorem outcome_fail (e : Error) : (fail e : Traced α).outcome = .error e :=
  rfl

@[simp] theorem outcome_lookup (name : String) (r : Except Error α) :
    (lookup name r).outcome = r :=
  rfl

theorem bind_outcome_eq_ok {x : Traced α} {f : α → Traced β} {b : β} :
    (x >>= f).outcome = .ok b ↔ ∃ a, x.outcome = .ok a ∧ (f a).outcome = .ok b := by
  rw [outcome_bind]
  cases x.outcome <;> simp [bind, Except.bind]

theorem bind_outcome_eq_error {x : Traced α} {f : α → Traced β} {e : Error} :
    (x >>= f).outcome = .error e ↔
      x.outcome = .error e ∨ ∃ a, x.outcome = .ok a ∧ (f a).outcome = .error e := by
  rw [outcome_bind]
  cases x.outcome <;> simp [bind, Except.bind]

@[simp] theorem lookups_lookup (name : String) (r : Except Error α) :
    (lookup name r).lookups = [name] :=
  rfl

theorem lookups_bind_of_ok {x : Traced α} {f : α → Traced β} {a : α} (h : x.outcome = .ok a) :
    (x >>= f).lookups = x.lookups ++ (f a).lookups := by
  rw [bind_eq_andThen, andThen, h]

theorem lookups_bind_of_error {x : Traced α} {f : α → Traced β} {e : Error}
    (h : x.outcome = .error e) : (x >>= f).lookups = x.lookups := by
  rw [bind_eq_andThen, andThen, h]

/-- What follows a computation matters only for the value that the computation has. -/
theorem bind_congr_of_outcome {x : Traced α} {f f' : α → Traced β}
    (h : ∀ a, x.outcome = .ok a → f' a = f a) : x >>= f' = x >>= f := by
  rw [bind_eq_andThen, bind_eq_andThen]
  unfold andThen
  split
  · rfl
  next a ha => rw [h a ha]

end Traced

end Spreadsheet
