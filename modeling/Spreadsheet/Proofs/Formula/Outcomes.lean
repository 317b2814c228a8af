import Spreadsheet.Proofs.Formula.Instructions
import Spreadsheet.Proofs.Formula.Lookups

/-!
# How formulas end

A formula over cells whose values are texts and finite numbers has such a value itself, or it ends in
an error of formulas: symbols without a meaning and signals of arithmetic do not get out. Only the
number of digits that are read is a limit of another kind.

## Main definitions

* `Value.IsFinite` — the values that cells and formulas have.
* `Regular` — outcomes that are such values or errors of formulas.

## Main statements

* `Machine.regular_run` — the runs of instructions.
* `regular_formula` — the outcome of a formula.
-/

namespace Spreadsheet

variable {α β : Type}

/-! ## Outcomes -/

/-- Whether a number is a decimal, neither infinite nor a NaN. -/
def Number.IsFinite (n : Number) : Prop :=
  ∃ d, n = .finite d

/-- Whether a value is a text or a finite number. -/
inductive Value.IsFinite : Value → Prop
  | number {n : Number} (h : n.IsFinite) : IsFinite (.number n)
  | text (s : String) : IsFinite (.text s)

/-- The outcomes of formulas: values with a property, and errors of formulas. The only other error is
that a name has more digits than are read. -/
inductive Regular (P : α → Prop) : Except Error α → Prop
  | ok {a : α} (h : P a) : Regular P (.ok a)
  | error {e : Error} (h : e.isFormulaError) : Regular P (.error e)
  | tooManyDigits {count : Nat} (h : Text.digitLimit < count) :
    Regular P (.error (.tooManyDigits count))

namespace Regular

variable {P : α → Prop} {Q : β → Prop}

theorem bind {r : Except Error α} {f : α → Except Error β} (hr : Regular P r)
    (hf : ∀ a, P a → Regular Q (f a)) : Regular Q (r >>= f) := by
  cases hr with
  | ok h => exact hf _ h
  | error h => exact .error h
  | tooManyDigits h => exact .tooManyDigits h

theorem andThen {x : Traced α} {f : α → Traced β} (hx : Regular P x.outcome)
    (hf : ∀ a, P a → Regular Q (f a).outcome) : Regular Q (x >>= f).outcome := by
  rw [Traced.outcome_bind]
  exact hx.bind hf

end Regular

/-! ## Operands and results -/

open Spreadsheet.Expr (withinRange)

theorem regular_toNumber {v : Value} (hv : v.IsFinite) : Regular Number.IsFinite v.toNumber := by
  cases hnumber : v.toNumber with
  | error e => exact .error (isLocal_of_toNumber hnumber).1
  | ok n =>
    cases hv with
    | number h => exact .ok (Except.ok.inj hnumber ▸ h)
    | text s =>
      obtain ⟨d, -, rfl⟩ := exists_of_map_eq_ok hnumber
      exact .ok ⟨d, rfl⟩

/-- A signal of arithmetic is reported as an error of the formula. -/
theorem regular_withinRange {outOfRange : Error} (h : outOfRange.isFormulaError)
    (op : BinaryOperator) {a b : Number} (ha : a.IsFinite) (hb : b.IsFinite) :
    Regular Value.IsFinite (withinRange outOfRange (op.apply a b)) := by
  unfold withinRange
  split
  next n hn =>
    obtain ⟨x, rfl⟩ := ha
    obtain ⟨y, rfl⟩ := hb
    obtain ⟨d, rfl, -⟩ := op.exists_of_apply hn
    exact .ok (.number ⟨d, rfl⟩)
  next => exact .error h
  next e hsignal he =>
    obtain ⟨s, rfl⟩ | rfl := op.apply_eq_error he
    · exact absurd rfl (hsignal s)
    · exact .error rfl

theorem isFinite_ofNat (k : Nat) : (Number.ofNat k).IsFinite :=
  ⟨_, rfl⟩

theorem regular_cell {resolve : String → Traced Value} {name : String}
    (h : Regular Value.IsFinite (resolve name).outcome) :
    Regular Value.IsFinite ((Expr.cell name).eval resolve).outcome := by
  refine h.andThen fun v hv => ?_
  cases hv with
  | number hn => exact .ok (.number hn)
  | text s =>
    dsimp only
    split
    · exact .error rfl
    · exact .ok (.text s)

namespace Machine

variable {resolve : String → Traced Value} {stack : List Value} {t : Token} {ts : List Token}

/-! ## Runs -/

theorem regular_push {x : Traced Value} (hx : Regular Value.IsFinite x.outcome)
    (hstack : ∀ v ∈ stack, v.IsFinite) :
    Regular (fun stack => ∀ v ∈ stack, Value.IsFinite v)
      (x >>= fun v => pure (v :: stack)).outcome :=
  hx.andThen fun _ hv => .ok (List.forall_mem_cons.2 ⟨hv, hstack⟩)

/-- An instruction leaves texts and finite numbers on the stack. -/
theorem regular_step (hr : ∀ name, Regular Value.IsFinite (resolve name).outcome)
    (ht : t.word.IsInstruction) (hstack : ∀ v ∈ stack, v.IsFinite) :
    Regular (fun stack => ∀ v ∈ stack, Value.IsFinite v) (step resolve stack t).outcome := by
  generalize hw : t.word = w at ht
  cases ht with
  | number n =>
    rw [step_number hw]
    exact .ok (List.forall_mem_cons.2 ⟨.number ⟨_, rfl⟩, hstack⟩)
  | cell name =>
    rw [step_cell hw]
    exact regular_push (regular_cell (hr name)) hstack
  | function f =>
    obtain - | ⟨v, stack⟩ := stack
    · simp only [step, (Token.kind_eq_of_word hw).1]
      exact .error rfl
    · obtain ⟨hv, hstack⟩ := List.forall_mem_cons.1 hstack
      rw [step_function hw]
      refine regular_push (Regular.andThen (regular_toNumber hv) fun x hx => ?_) hstack
      obtain ⟨op, hop⟩ := f.exists_apply_eq x
      rw [hop]
      exact regular_withinRange rfl op hx (isFinite_ofNat 1)
  | operator op =>
    obtain - | ⟨w, - | ⟨v, stack⟩⟩ := stack
    · simp only [step, (Token.kind_eq_of_word hw).1]
      exact .error rfl
    · simp only [step, (Token.kind_eq_of_word hw).1]
      exact .error rfl
    · obtain ⟨hw', hv, hstack⟩ : w.IsFinite ∧ v.IsFinite ∧ ∀ v ∈ stack, v.IsFinite := by
        simpa using hstack
      rw [step_operator hw]
      refine regular_push (Regular.andThen (regular_toNumber hv) fun x hx => ?_) hstack
      refine Regular.andThen (regular_toNumber hw') fun y hy => ?_
      exact regular_withinRange rfl op hx hy

theorem regular_steps (hr : ∀ name, Regular Value.IsFinite (resolve name).outcome)
    (hts : ∀ t ∈ ts, t.word.IsInstruction) (hstack : ∀ v ∈ stack, v.IsFinite) :
    Regular (fun stack => ∀ v ∈ stack, Value.IsFinite v) (steps resolve stack ts).outcome := by
  induction ts generalizing stack with
  | nil => exact .ok hstack
  | cons t ts ih =>
    obtain ⟨ht, hts⟩ := List.forall_mem_cons.1 hts
    rw [steps_cons]
    exact (regular_step hr ht hstack).andThen fun stack' hstack' => ih hts hstack'

/-- A run of instructions ends with a text or a finite number, or with an error of formulas. -/
theorem regular_run (hr : ∀ name, Regular Value.IsFinite (resolve name).outcome)
    (hts : ∀ t ∈ ts, t.word.IsInstruction) :
    Regular Value.IsFinite (run resolve ts).outcome := by
  refine (regular_steps hr hts (by simp)).andThen fun stack hstack => ?_
  show Regular Value.IsFinite (result stack)
  unfold result
  split
  next v => exact .ok (hstack v (List.mem_singleton_self v))
  next => exact .error rfl

end Machine

/-! ## Formulas -/

theorem regular_postorder (formula : String) :
    Regular (fun ts => ∀ t ∈ ts, t.word.IsInstruction) (postorder formula) := by
  cases hpost : postorder formula with
  | error e => exact .error (isLocal_of_postorder hpost).1
  | ok ts => exact .ok (isInstruction_of_postorder hpost)

/-- A formula ends with a text or a finite number, or with an error of formulas. -/
theorem regular_formula {resolve : String → Traced Value}
    (hr : ∀ name, Regular Value.IsFinite (resolve name).outcome) (formula : String) :
    Regular Value.IsFinite
      (do
        let tokens ← postorder formula
        Machine.run resolve tokens : Traced Value).outcome :=
  Regular.andThen (regular_postorder formula) fun _ hts => Machine.regular_run hr hts

end Spreadsheet
