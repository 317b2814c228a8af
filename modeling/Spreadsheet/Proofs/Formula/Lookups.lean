import Spreadsheet.Formula.Evaluate
import Spreadsheet.Proofs.Formula.Effects

/-!
# What lookups do to a run

The machine has errors of its own, none of which is about a chain of cells. An error that reports a
path hence comes from the lookup of a cell among the tokens; and if the run has a value, every such
lookup has one. A run whose outcome is not that chains are too long is repeated, lookups and all, by
every resolver that repeats the lookups with this property.

## Main definitions

* `Error.path?` — the path that an error reports.
* `Error.IsLocal` — the errors of a formula itself.
* `Error.IsOfReading` — the errors of a formula that cannot be read.
* `Traced.Settled` — outcomes which no greater length of chains would change.

## Main statements

* `postorder_eq_error` — how reading a formula fails.
* `Machine.exists_lookup_of_run_error` — the lookup behind an error with a path.
* `Machine.exists_value_of_run` — the values behind a value.
* `Machine.run_eq_of_settled`, `Machine.run_congr` — runs with two resolvers.
-/

namespace Spreadsheet

/-- The cells that an error reports, if it is about a chain of references. -/
def Error.path? : Error → Option (List String)
  | cycle path => some path
  | chainTooLong path _ => some path
  | _ => none

/-! ## Errors of formulas -/

/-- Whether an error belongs to formulas and is not about a chain of references. -/
def Error.IsLocal (e : Error) : Prop :=
  e.isFormulaError ∧ e.path? = none

section IsLocal

variable {e : Error}

theorem Error.path?_eq_none_of_notANumber (h : e.category = .notANumber) : e.path? = none := by
  cases e with
  | cycle | chainTooLong => cases h
  | _ => rfl

theorem Error.IsOfMachine.path?_eq_none (h : e.IsOfMachine) : e.path? = none := by
  cases h <;> rfl

theorem isLocal_of_toNumber {v : Value} (h : v.toNumber = .error e) : e.IsLocal := by
  obtain ⟨s, -, -, rfl⟩ | hcategory := Value.toNumber_eq_error h
  · exact ⟨rfl, rfl⟩
  · refine ⟨?_, Error.path?_eq_none_of_notANumber hcategory⟩
    rw [Error.isFormulaError, hcategory]
    rfl

/-- The errors of reading a formula, other than those about a comma. -/
inductive Error.IsOfReading : Error → Prop
  | strayCharacters (stray : String) : IsOfReading (.strayCharacters stray)
  | functionWithoutParentheses (function : String) (position : Int) :
    IsOfReading (.functionWithoutParentheses function position)
  | unclosedParenthesis (position : Int) : IsOfReading (.unclosedParenthesis position)
  | unexpectedParenthesis (position : Int) : IsOfReading (.unexpectedParenthesis position)

theorem Error.IsOfReading.isLocal (h : e.IsOfReading) : e.IsLocal := by
  cases h <;> exact ⟨rfl, rfl⟩

/-- Tokens are refused for a comma, for stray characters, or for a function that is not called. -/
theorem tokenize_eq_error {formula : String} (h : tokenize formula = .error e) :
    (',' ∈ formula.toList ∧ e = .commaInFormula) ∨ e.IsOfReading := by
  unfold tokenize at h
  split at h
  next hcomma =>
    cases h
    exact .inl ⟨List.contains_iff_mem.1 hcomma, rfl⟩
  dsimp only at h
  split at h
  · cases h
    exact .inr (.strayCharacters _)
  split at h
  · cases h
    exact .inr (.functionWithoutParentheses _ _)
  · cases h

/-- The order of tokens is refused for its parentheses. -/
theorem isOfReading_of_postorderFrom {stack ts : List Token}
    (h : postorderFrom stack ts = .error e) : e.IsOfReading := by
  induction ts generalizing stack with
  | nil =>
    unfold postorderFrom drain at h
    split at h
    · cases h
      exact .unclosedParenthesis _
    · cases h
  | cons t ts ih =>
    unfold postorderFrom at h
    split at h
    case h_6 =>
      split at h
      · cases h
        exact .unexpectedParenthesis _
      · exact ih (eq_error_of_map_eq_error h)
    case h_3 | h_4 => exact ih h
    all_goals exact ih (eq_error_of_map_eq_error h)

/-- How the reading of a formula fails. -/
theorem postorder_eq_error {formula : String} (h : postorder formula = .error e) :
    (',' ∈ formula.toList ∧ e = .commaInFormula) ∨ e.IsOfReading := by
  obtain h | ⟨ts, -, h⟩ := eq_error_of_bind_eq_error h
  · exact tokenize_eq_error h
  · exact .inr (isOfReading_of_postorderFrom h)

theorem isLocal_of_postorder {formula : String} (h : postorder formula = .error e) : e.IsLocal := by
  obtain ⟨-, rfl⟩ | h := postorder_eq_error h
  · exact ⟨rfl, rfl⟩
  · exact h.isLocal

end IsLocal

/-! ## Results without paths -/

/-- Whether a result is no error about a chain of references. -/
def Pathless {α : Type} (r : Except Error α) : Prop :=
  ∀ e, r = .error e → e.path? = none

namespace Pathless

variable {α β : Type}

theorem ok (a : α) : Pathless (.ok a) := by
  rintro e ⟨⟩

theorem error {e : Error} (h : e.path? = none) : Pathless (.error e : Except Error α) := by
  rintro _ ⟨⟩
  exact h

end Pathless

theorem pathless_postorder (formula : String) : Pathless (postorder formula) := fun _ he =>
  (isLocal_of_postorder he).2

/-! ## Outcomes that greater lengths do not change -/

namespace Traced

variable {α β : Type} {x x' : Traced α} {f f' : α → Traced β}

/-- Whether an outcome is another one than that a chain is too long. -/
def Settled (x : Traced α) : Prop :=
  ∀ path limit, x.outcome ≠ .error (.chainTooLong path limit)

theorem Settled.of_bind (h : (x >>= f).Settled) : x.Settled := fun path limit he =>
  h path limit (bind_outcome_eq_error.2 (.inl he))

theorem bind_eq_of_settled (hx : x.Settled → x' = x) (hf : ∀ a, (f a).Settled → f' a = f a)
    (h : (x >>= f).Settled) : x' >>= f' = x >>= f := by
  rw [hx h.of_bind]
  refine bind_congr_of_outcome fun a ha => hf a fun path limit he => ?_
  exact h path limit (bind_outcome_eq_error.2 (.inr ⟨a, ha, he⟩))

end Traced

namespace Machine

variable {resolve resolve' : String → Traced Value} {stack stack' : List Value} {t : Token}
  {ts : List Token} {e : Error}

/-! ## Single tokens -/

/-- An error with a path comes from a lookup. -/
theorem step_error (h : (step resolve stack t).outcome = .error e) (he : e.path? ≠ none) :
    t.kind = .cell ∧ (resolve t.text).outcome = .error e := by
  cases failure_of_step h with
  | lookup hkind h => exact ⟨hkind, h⟩
  | comma => exact absurd rfl he
  | operand _ _ h => exact absurd (isLocal_of_toNumber h).2 he
  | machine _ h => exact absurd h.path?_eq_none he

theorem exists_value_of_step (h : (step resolve stack t).outcome = .ok stack')
    (hkind : t.kind = .cell) : ∃ v, (resolve t.text).outcome = .ok v := by
  simp only [step, hkind] at h
  obtain ⟨v, hv, -⟩ := Traced.bind_outcome_eq_ok.1 h
  exact ⟨v, hv⟩

theorem step_eq_of_settled (hr : ∀ name, (resolve name).Settled → resolve' name = resolve name)
    (h : (step resolve stack t).Settled) : step resolve' stack t = step resolve stack t := by
  cases hkind : t.kind
  case cell =>
    simp only [step, hkind] at h ⊢
    exact Traced.bind_eq_of_settled (hr _) (fun _ _ => rfl) h
  all_goals simp only [step, hkind]

theorem step_congr (h : t.kind = .cell → resolve' t.text = resolve t.text) :
    step resolve' stack t = step resolve stack t := by
  cases hkind : t.kind
  case cell => simp only [step, hkind, h hkind]
  all_goals simp only [step, hkind]

theorem outcome_step_congr
    (h : t.kind = .cell → (resolve' t.text).outcome = (resolve t.text).outcome) :
    (step resolve' stack t).outcome = (step resolve stack t).outcome := by
  cases hkind : t.kind
  case cell => simp only [step, hkind, Traced.outcome_bind, h hkind]
  all_goals simp only [step, hkind]

/-! ## Runs -/

theorem exists_lookup_of_steps_error (h : (steps resolve stack ts).outcome = .error e)
    (he : e.path? ≠ none) : ∃ t ∈ ts, t.kind = .cell ∧ (resolve t.text).outcome = .error e := by
  induction ts generalizing stack with
  | nil => cases h
  | cons t ts ih =>
    obtain h | ⟨stack', -, h⟩ := Traced.bind_outcome_eq_error.1 h
    · exact ⟨t, List.mem_cons_self, step_error h he⟩
    · obtain ⟨u, hu, hlookup⟩ := ih h
      exact ⟨u, List.mem_cons_of_mem t hu, hlookup⟩

theorem exists_value_of_steps (h : (steps resolve stack ts).outcome = .ok stack') (ht : t ∈ ts)
    (hkind : t.kind = .cell) : ∃ v, (resolve t.text).outcome = .ok v := by
  induction ts generalizing stack with
  | nil => cases ht
  | cons u ts ih =>
    obtain ⟨stack₁, hstep, h⟩ := Traced.bind_outcome_eq_ok.1 h
    obtain rfl | ht := List.mem_cons.1 ht
    · exact exists_value_of_step hstep hkind
    · exact ih h ht

theorem steps_eq_of_settled (hr : ∀ name, (resolve name).Settled → resolve' name = resolve name)
    (h : (steps resolve stack ts).Settled) : steps resolve' stack ts = steps resolve stack ts := by
  induction ts generalizing stack with
  | nil => rfl
  | cons t ts ih =>
    exact Traced.bind_eq_of_settled (step_eq_of_settled hr) (fun stack' h => ih h) h

theorem steps_congr (h : ∀ t ∈ ts, t.kind = .cell → resolve' t.text = resolve t.text) :
    steps resolve' stack ts = steps resolve stack ts := by
  induction ts generalizing stack with
  | nil => rfl
  | cons t ts ih =>
    obtain ⟨ht, hts⟩ := List.forall_mem_cons.1 h
    rw [steps, steps, step_congr ht]
    exact bind_congr fun stack' => ih hts

theorem outcome_steps_congr
    (h : ∀ t ∈ ts, t.kind = .cell → (resolve' t.text).outcome = (resolve t.text).outcome) :
    (steps resolve' stack ts).outcome = (steps resolve stack ts).outcome := by
  induction ts generalizing stack with
  | nil => rfl
  | cons t ts ih =>
    obtain ⟨ht, hts⟩ := List.forall_mem_cons.1 h
    rw [steps, steps, Traced.outcome_bind, Traced.outcome_bind, outcome_step_congr ht]
    exact bind_congr fun stack' => ih hts

/-- An error with a path comes from the lookup of a cell. -/
theorem exists_lookup_of_run_error (h : (run resolve ts).outcome = .error e) (he : e.path? ≠ none) :
    ∃ t ∈ ts, t.kind = .cell ∧ (resolve t.text).outcome = .error e := by
  obtain h | ⟨stack, -, h⟩ := Traced.bind_outcome_eq_error.1 h
  · exact exists_lookup_of_steps_error h he
  · exact absurd (isOfMachine_of_result h).path?_eq_none he

/-- A run that has a value has values for all its cells. -/
theorem exists_value_of_run {v : Value} (h : (run resolve ts).outcome = .ok v) (ht : t ∈ ts)
    (hkind : t.kind = .cell) : ∃ w, (resolve t.text).outcome = .ok w := by
  obtain ⟨stack, hsteps, -⟩ := Traced.bind_outcome_eq_ok.1 h
  exact exists_value_of_steps hsteps ht hkind

/-- A resolver that repeats all settled lookups repeats all settled runs. -/
theorem run_eq_of_settled (hr : ∀ name, (resolve name).Settled → resolve' name = resolve name)
    (h : (run resolve ts).Settled) : run resolve' ts = run resolve ts :=
  Traced.bind_eq_of_settled (steps_eq_of_settled hr) (fun _ _ => rfl) h

/-- A run depends on a resolver only at the cells among its tokens. -/
theorem run_congr (h : ∀ t ∈ ts, t.kind = .cell → resolve' t.text = resolve t.text) :
    run resolve' ts = run resolve ts := by
  rw [run, run, steps_congr h]

/-- The outcome of a run depends on a resolver only through the outcomes of the cells among its
tokens. -/
theorem outcome_run_congr
    (h : ∀ t ∈ ts, t.kind = .cell → (resolve' t.text).outcome = (resolve t.text).outcome) :
    (run resolve' ts).outcome = (run resolve ts).outcome := by
  rw [run, run, Traced.outcome_bind, Traced.outcome_bind, outcome_steps_congr h]

end Machine

end Spreadsheet
