import Spreadsheet.Formula.Evaluate
import Spreadsheet.Proofs.Formula.Balance

/-!
# The order of lookups

The cells of a formula are looked up in the order in which the formula names them. Conversion to
postorder moves operators and functions but leaves the operands in their places, and the machine
looks up a cell when it comes to its token, whatever becomes of the value. So a run that fails has
looked up the cells up to some place, and a run that succeeds all of them, each as often as it is
named. What fails before the machine starts looks up nothing.

## Main definitions

* `cellNames` — the names of the cells among tokens.
* `Traced.recording` — a resolver whose calls are recorded.

## Main statements

* `Machine.lookups_step` — what one token looks up.
* `Machine.lookups_run_isPrefix`, `Machine.lookups_run_of_ok` — what a run looks up.
* `lookups_evaluate` — what the evaluation of an expression looks up.
-/

namespace Spreadsheet

variable {r : String → Except Error Value} {stack stack' : List Value} {t : Token}
  {ts out : List Token} {formula expression : String} {v : Value}

/-! ## Names of cells -/

/-- The names of the cells among tokens, in order and as often as they occur. -/
def cellNames (ts : List Token) : List String :=
  (ts.filter (·.kind = .cell)).map Token.text

theorem cellNames_cons (t : Token) (ts : List Token) :
    cellNames (t :: ts) = cellNames [t] ++ cellNames ts := by
  rw [cellNames, ← List.singleton_append, List.filter_append, List.map_append]
  rfl

theorem cellNames_of_cell (h : t.kind = .cell) : cellNames [t] = [t.text] := by
  simp [cellNames, h]

theorem cellNames_of_ne (h : t.kind ≠ .cell) : cellNames [t] = [] := by
  simp [cellNames, h]

theorem cellNames_filter_isOperand (ts : List Token) :
    cellNames (ts.filter Token.isOperand) = cellNames ts := by
  rw [cellNames, List.filter_filter, cellNames]
  refine congrArg _ (List.filter_congr fun t _ => ?_)
  by_cases ht : t.kind = .cell <;> simp [Token.isOperand, ht]

/-- Conversion to postorder keeps the cells in their order. -/
theorem cellNames_toPostorder (h : toPostorder ts = .ok out) : cellNames out = cellNames ts := by
  have hoperands : out.filter Token.isOperand = ts.filter Token.isOperand :=
    (converts_of_postorderFrom h).filter_isOperand fun t ht => absurd ht List.not_mem_nil
  rw [← cellNames_filter_isOperand out, hoperands, cellNames_filter_isOperand]

/-! ## Runs -/

namespace Traced

/-- The resolver with the outcomes `r`, with each of its calls recorded. -/
def recording (r : String → Except Error Value) (name : String) : Traced Value :=
  lookup name (r name)

end Traced

namespace Machine

open Traced (recording)

theorem lookups_push (r : Except Error Value) (stack : List Value) :
    ((Traced.ofExcept r >>= fun v => pure (v :: stack)) : Traced _).lookups = [] := by
  cases r <;> rfl

/-- A token looks up the cell that it names, if it is one, whether or not it succeeds. -/
theorem lookups_step : (step (recording r) stack t).lookups = cellNames [t] := by
  cases hkind : t.kind
  case cell =>
    simp only [step, hkind, cellNames_of_cell hkind]
    cases hr : r t.text with
    | error e =>
      rw [Traced.lookups_bind_of_error (by rw [recording, Traced.outcome_lookup, hr])]
      rfl
    | ok v =>
      rw [Traced.lookups_bind_of_ok (by rw [recording, Traced.outcome_lookup, hr]), recording,
        Traced.lookups_lookup]
      exact congrArg _ (lookups_push (checkComma t.text v) stack)
  all_goals
    have hcell : t.kind ≠ .cell := by simp [hkind]
    simp only [step, hkind, cellNames_of_ne hcell]
  case number => exact lookups_push (numeral t.text) stack
  case function =>
    obtain - | ⟨v, stack⟩ := stack
    · rfl
    · exact lookups_push (applyFunction t.text v) stack
  case operator =>
    obtain - | ⟨w, - | ⟨v, stack⟩⟩ := stack
    · rfl
    · rfl
    · exact lookups_push (applyOperator t.text v w) stack
  all_goals rfl

theorem lookups_steps_isPrefix : (steps (recording r) stack ts).lookups <+: cellNames ts := by
  induction ts generalizing stack with
  | nil => exact List.prefix_refl []
  | cons t ts ih =>
    have hstep_lookups : (step (recording r) stack t).lookups = cellNames [t] := lookups_step
    rw [cellNames_cons, steps_cons, ← hstep_lookups]
    cases hstep : (step (recording r) stack t).outcome with
    | error e =>
      rw [Traced.lookups_bind_of_error hstep]
      exact List.prefix_append _ _
    | ok stack' =>
      rw [Traced.lookups_bind_of_ok hstep]
      exact (List.prefix_append_right_inj _).2 ih

theorem lookups_steps_of_ok (h : (steps (recording r) stack ts).outcome = .ok stack') :
    (steps (recording r) stack ts).lookups = cellNames ts := by
  induction ts generalizing stack with
  | nil => rfl
  | cons t ts ih =>
    rw [steps_cons] at h ⊢
    obtain ⟨next, hstep, hsteps⟩ := Traced.bind_outcome_eq_ok.1 h
    rw [Traced.lookups_bind_of_ok hstep, lookups_step, ih hsteps, ← cellNames_cons]

theorem lookups_run : (run (recording r) ts).lookups = (steps (recording r) [] ts).lookups := by
  rw [run]
  cases hsteps : (steps (recording r) [] ts).outcome with
  | error e => exact Traced.lookups_bind_of_error hsteps
  | ok stack => exact (Traced.lookups_bind_of_ok hsteps).trans (List.append_nil _)

/-- A run looks up cells in their order, up to where it fails. -/
theorem lookups_run_isPrefix : (run (recording r) ts).lookups <+: cellNames ts :=
  lookups_run ▸ lookups_steps_isPrefix

/-- A run with a value has looked up all cells. -/
theorem lookups_run_of_ok (h : (run (recording r) ts).outcome = .ok v) :
    (run (recording r) ts).lookups = cellNames ts := by
  obtain ⟨stack, hsteps, -⟩ := Traced.bind_outcome_eq_ok.1 h
  rw [lookups_run, lookups_steps_of_ok hsteps]

end Machine

/-! ## Evaluation -/

open Traced (recording)

/-- Whether an expression needs no machine: it is zero or a literal, or it cannot be put into
postorder. -/
def NeedsNoRun (expression : String) : Prop :=
  Text.isBlankText expression = true ∨ (∃ d, Decimal.ofLiteral? expression = some d) ∨
    ',' ∈ expression.toList ∨ ∃ e, postorder (withoutEquals expression) = .error e

/-- What the machine does not run looks up nothing. -/
theorem NeedsNoRun.lookups_eq_nil {resolve : String → Traced Value} (h : NeedsNoRun expression) :
    (evaluate resolve expression).lookups = [] := by
  unfold evaluate
  split
  · rfl
  next hblank =>
    split
    · rfl
    next hcomma =>
      split
      · rfl
      next hliteral =>
        obtain h | ⟨d, hd⟩ | h | ⟨e, he⟩ := h
        · exact absurd h hblank
        · cases hliteral.symm.trans hd
        · exact absurd (List.contains_iff_mem.2 h) hcomma
        · exact Traced.lookups_bind_of_error he

/-- The machine runs the postorder of every other expression. -/
theorem exists_run_of_not_needsNoRun (h : ¬ NeedsNoRun expression) :
    ∃ ts out, tokenize (withoutEquals expression) = .ok ts ∧ toPostorder ts = .ok out ∧
      ∀ resolve, evaluate resolve expression = Machine.run resolve out := by
  simp only [NeedsNoRun, not_or, not_exists] at h
  obtain ⟨hblank, hliteral, hcomma, herror⟩ := h
  cases hout : postorder (withoutEquals expression) with
  | error e => exact absurd hout (herror e)
  | ok out =>
    obtain ⟨ts, hts, hpost⟩ := exists_tokens_of_postorder hout
    refine ⟨ts, out, hts, hpost, fun resolve => ?_⟩
    have hcontains : ¬ expression.toList.contains ',' = true := fun hmem =>
      hcomma (List.contains_iff_mem.1 hmem)
    have hnone : Decimal.ofLiteral? expression = none :=
      Option.eq_none_iff_forall_ne_some.2 hliteral
    rw [evaluate, if_neg hblank, if_neg hcontains, hnone, hout]
    rfl

/-- A value that is neither zero for a blank text nor that of a literal comes from the machine. -/
theorem not_needsNoRun_of_value {resolve : String → Traced Value}
    (hblank : Text.isBlankText expression = false)
    (hliteral : Decimal.ofLiteral? expression = none)
    (h : (evaluate resolve expression).outcome = .ok v) : ¬ NeedsNoRun expression := by
  unfold evaluate at h
  rw [hblank, hliteral, if_neg Bool.false_ne_true] at h
  split at h
  · cases h
  next hcomma =>
    obtain ⟨out, hout, -⟩ := Traced.bind_outcome_eq_ok.1 h
    have hpost : postorder (withoutEquals expression) = .ok out := hout
    rintro (hrun | ⟨d, hd⟩ | hrun | ⟨e, he⟩)
    · cases hblank.symm.trans hrun
    · cases hliteral.symm.trans hd
    · exact hcomma (List.contains_iff_mem.2 hrun)
    · cases hpost.symm.trans he

/-- An expression looks up the cells that it names, from the first one on and in their order; it
looks up all of them, each as often as it is named, if it has a value that is not that of a literal
or of a blank text. It looks up nothing if it is blank, a literal, has a comma, cannot be read as
tokens, or if its parentheses do not match. -/
theorem lookups_evaluate (r : String → Except Error Value) (expression : String) :
    (∀ ts, tokenize (withoutEquals expression) = .ok ts →
      (evaluate (recording r) expression).lookups <+: cellNames ts ∧
        (¬ Balanced (ts.map Token.word) → (evaluate (recording r) expression).lookups = [])) ∧
    (∀ v, (evaluate (recording r) expression).outcome = .ok v →
      Text.isBlankText expression = false → Decimal.ofLiteral? expression = none →
      ∃ ts, tokenize (withoutEquals expression) = .ok ts ∧
        (evaluate (recording r) expression).lookups = cellNames ts) ∧
    (Text.isBlankText expression = true ∨ (∃ d, Decimal.ofLiteral? expression = some d) ∨
        ',' ∈ expression.toList ∨ (∃ e, postorder (withoutEquals expression) = .error e) →
      (evaluate (recording r) expression).lookups = []) := by
  by_cases hrun : NeedsNoRun expression
  · have hnil : (evaluate (recording r) expression).lookups = [] := hrun.lookups_eq_nil
    refine ⟨fun ts _ => ⟨hnil ▸ List.nil_prefix, fun _ => hnil⟩, ?_, fun _ => hnil⟩
    intro v hv hblank hliteral
    exact absurd hrun (not_needsNoRun_of_value hblank hliteral hv)
  · obtain ⟨us, out, hus, hpost, heval⟩ := exists_run_of_not_needsNoRun hrun
    rw [heval]
    refine ⟨fun ts hts => ?_, fun v hv _ _ => ⟨us, hus, ?_⟩, fun h => absurd h hrun⟩
    · obtain rfl := Except.ok.inj (hus.symm.trans hts)
      refine ⟨cellNames_toPostorder hpost ▸ Machine.lookups_run_isPrefix, fun hbalanced => ?_⟩
      exact absurd (balanced_of_toPostorder hts hpost) hbalanced
    · rw [← cellNames_toPostorder hpost]
      exact Machine.lookups_run_of_ok hv

/-- The cells of a difference in a group are looked up in the order of the text. If the group is left
open, nothing is. -/
theorem lookups_evaluate_difference :
    let resolve := recording fun _ => .ok (.decimal (.ofNat 2))
    (evaluate resolve "=b1 - (A1 - b1)").outcome = .ok (.decimal (.ofNat 2)) ∧
      (evaluate resolve "=b1 - (A1 - b1)").lookups = ["B1", "A1", "B1"] ∧
      (evaluate resolve "=b1 - (A1 - b1").lookups = [] := by
  intro resolve
  have hvalue : (evaluate resolve "=b1 - (A1 - b1)").outcome = .ok (.decimal (.ofNat 2)) := by
    decide +kernel
  have hopen : tokenize (withoutEquals "=b1 - (A1 - b1") =
      .ok [⟨.cell, "B1", 0⟩, ⟨.operator, "-", 2⟩, ⟨.openParen, "(", 3⟩, ⟨.cell, "A1", 4⟩,
        ⟨.operator, "-", 6⟩, ⟨.cell, "B1", 7⟩] := by
    decide +kernel
  obtain ⟨-, hall, -⟩ :=
    lookups_evaluate (fun _ => .ok (.decimal (.ofNat 2))) "=b1 - (A1 - b1)"
  obtain ⟨ts, hts, hlookups⟩ := hall _ hvalue (by decide +kernel) (by decide +kernel)
  obtain rfl : ts = [⟨.cell, "B1", 0⟩, ⟨.operator, "-", 2⟩, ⟨.openParen, "(", 3⟩, ⟨.cell, "A1", 4⟩,
      ⟨.operator, "-", 6⟩, ⟨.cell, "B1", 7⟩, ⟨.closeParen, ")", 9⟩] :=
    Except.ok.inj (hts.symm.trans (by decide +kernel))
  obtain ⟨hsome, -, -⟩ := lookups_evaluate (fun _ => .ok (.decimal (.ofNat 2))) "=b1 - (A1 - b1"
  refine ⟨hvalue, hlookups, (hsome _ hopen).2 fun hbalanced => ?_⟩
  exact absurd hbalanced.closed_eq (by decide)

end Spreadsheet
