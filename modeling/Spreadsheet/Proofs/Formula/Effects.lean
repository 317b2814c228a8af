import Spreadsheet.Formula.Machine
import Spreadsheet.Proofs.Formula.Operators
import Spreadsheet.Proofs.Formula.Traced

/-!
# What one token does

All that a token can do to the stack of the machine, and all reasons for which it can fail. A token
that succeeds leaves one value above a part of the stack. A token that fails is a cell whose lookup
fails or whose text has a comma, or an operand is no number, or the machine itself has no result.
What holds along every run is shown case by case.

## Main definitions

* `Value.HasComma` — the texts with a comma.
* `Machine.Effect` — what a token does if it succeeds.
* `Machine.Failure` — why a token fails.

## Main statements

* `Machine.effect_of_step`, `Machine.failure_of_step` — there are no other effects and failures.
-/

namespace Spreadsheet

variable {v w : Value} {e : Error} {a b : Number}

/-! ## Operands -/

/-- Whether a value is a text with a comma. -/
def Value.HasComma (v : Value) : Prop :=
  ∃ s, v = .text s ∧ ',' ∈ s.toList

theorem Value.not_hasComma_number (n : Number) : ¬ (Value.number n).HasComma := by
  rintro ⟨s, hs, -⟩
  cases hs

/-- What is no number as an operand is a text with a comma, or simply not a number. -/
theorem Value.toNumber_eq_error (h : v.toNumber = .error e) :
    (∃ s, v = .text s ∧ ',' ∈ s.toList ∧ e = .commaInText s) ∨ e.category = .notANumber := by
  cases v with
  | number n => cases h
  | text s =>
    have htext : Value.textToNumber s = .error e := eq_error_of_map_eq_error h
    unfold Value.textToNumber at htext
    split at htext
    · cases htext
    split at htext
    next hcomma =>
      cases htext
      exact .inl ⟨s, rfl, List.contains_iff_mem.1 hcomma, rfl⟩
    split at htext
    · cases htext
    · cases htext
      exact .inr rfl
  | _ =>
    cases h
    exact .inr rfl

/-! ## Errors of the machine -/

/-- The errors of the machine itself: operands are missing or left over, a symbol has no meaning, or
there is no result. -/
inductive Error.IsOfMachine : Error → Prop
  | missingOperand (function : String) : IsOfMachine (.missingOperand function)
  | missingOperands (operator : String) : IsOfMachine (.missingOperands operator)
  | unexpectedToken (text : String) (position : Int) : IsOfMachine (.unexpectedToken text position)
  | leftoverValues (count : Nat) : IsOfMachine (.leftoverValues count)
  | unknownSymbol (symbol : String) : IsOfMachine (.unknownSymbol symbol)
  | divideByZero (operator : String) : IsOfMachine (.divideByZero operator)
  | functionOutOfRange (function : String) (a : Number) :
    IsOfMachine (.functionOutOfRange function a)
  | operatorOutOfRange (operator : String) (a b : Number) :
    IsOfMachine (.operatorOutOfRange operator a b)
  | arithmetic (signal : Decimal.Signal) : IsOfMachine (.arithmetic signal)

namespace Machine

variable {text name symbol : String}

theorem isOfMachine_of_numeral (h : numeral text = .error e) : e.IsOfMachine := by
  unfold numeral at h
  split at h
  · cases h
  · cases h
    exact .arithmetic _

theorem isOfMachine_of_result {stack : List Value} (h : result stack = .error e) :
    e.IsOfMachine := by
  unfold result at h
  split at h
  · cases h
  · cases h
    exact .leftoverValues _

/-- A result that is missing is reported as `outOfRange`, or a divisor is zero. -/
theorem isOfMachine_of_rangeError {outOfRange : Error} (houtOfRange : outOfRange.IsOfMachine)
    (op : BinaryOperator)
    (h : ((op.apply a b).mapError (rangeError outOfRange)).map Value.number = .error e) :
    e.IsOfMachine := by
  cases hresult : op.apply a b with
  | ok n =>
    rw [hresult] at h
    cases h
  | error e' =>
    rw [hresult] at h
    obtain ⟨s, rfl⟩ | rfl := op.apply_eq_error hresult
    · cases h
      exact houtOfRange
    · cases h
      exact .divideByZero _

theorem applyFunction_eq_error (h : applyFunction name v = .error e) :
    v.toNumber = .error e ∨ e.IsOfMachine := by
  obtain h | ⟨a, -, h⟩ := eq_error_of_bind_eq_error h
  · exact .inl h
  split at h
  · cases h
    exact .inr (.unknownSymbol _)
  next f _ =>
    obtain ⟨op, hop⟩ := f.exists_apply_eq a
    rw [hop] at h
    exact .inr (isOfMachine_of_rangeError (.functionOutOfRange _ _) op h)

theorem applyOperator_eq_error (h : applyOperator symbol v w = .error e) :
    v.toNumber = .error e ∨ w.toNumber = .error e ∨ e.IsOfMachine := by
  unfold applyOperator at h
  split at h
  · cases h
    exact .inr (.inr (.unknownSymbol _))
  next op _ =>
    obtain h | ⟨x, -, h⟩ := eq_error_of_bind_eq_error h
    · exact .inl h
    obtain h | ⟨y, -, h⟩ := eq_error_of_bind_eq_error h
    · exact .inr (.inl h)
    exact .inr (.inr (isOfMachine_of_rangeError (.operatorOutOfRange _ _ _) op h))

/-! ## Numbers that the machine computes -/

theorem exists_number_of_numeral (h : numeral text = .ok v) : ∃ n, v = .number n := by
  unfold numeral at h
  split at h
  next n _ => exact ⟨n, (Except.ok.inj h).symm⟩
  next => cases h

theorem exists_number_of_applyFunction (h : applyFunction name w = .ok v) : ∃ n, v = .number n := by
  obtain ⟨a, -, h⟩ := exists_of_bind_eq_ok h
  split at h
  · cases h
  · obtain ⟨n, -, hn⟩ := exists_of_map_eq_ok h
    exact ⟨n, hn.symm⟩

theorem exists_number_of_applyOperator {left right : Value}
    (h : applyOperator symbol left right = .ok v) : ∃ n, v = .number n := by
  unfold applyOperator at h
  split at h
  · cases h
  · obtain ⟨x, -, h⟩ := exists_of_bind_eq_ok h
    obtain ⟨y, -, h⟩ := exists_of_bind_eq_ok h
    obtain ⟨n, -, hn⟩ := exists_of_map_eq_ok h
    exact ⟨n, hn.symm⟩

/-! ## The test for commas -/

theorem checkComma_of_hasComma (name : String) (h : v.HasComma) :
    checkComma name v = .error (.commaInCell name) := by
  obtain ⟨s, rfl, hs⟩ := h
  exact if_pos (List.contains_iff_mem.2 hs)

theorem checkComma_of_not_hasComma (name : String) (h : ¬ v.HasComma) :
    checkComma name v = .ok v := by
  unfold checkComma
  split
  next s =>
    rw [if_neg]
    intro hs
    exact h ⟨s, rfl, List.contains_iff_mem.1 hs⟩
  next => rfl

/-! ## Results on the stack -/

section Push

variable {stack stack' : List Value} {r : Except Error Value}

theorem exists_of_push
    (h : ((Traced.ofExcept r >>= fun v => pure (v :: stack)) : Traced _).outcome = .ok stack') :
    ∃ v, r = .ok v ∧ v :: stack = stack' := by
  obtain ⟨v, hv, h⟩ := Traced.bind_outcome_eq_ok.1 h
  exact ⟨v, hv, Except.ok.inj h⟩

theorem eq_error_of_push
    (h : ((Traced.ofExcept r >>= fun v => pure (v :: stack)) : Traced _).outcome = .error e) :
    r = .error e := by
  obtain h | ⟨v, -, h⟩ := Traced.bind_outcome_eq_error.1 h
  · exact h
  · cases h

end Push

/-! ## Effects -/

section Step

variable {resolve : String → Traced Value} {stack stack' : List Value} {t : Token}

/-- What a token does to the stack if it succeeds. -/
inductive Effect (resolve : String → Traced Value) (t : Token) : List Value → List Value → Prop
  | number {stack : List Value} {n : Number} (hkind : t.kind = .number)
    (h : numeral t.text = .ok (.number n)) : Effect resolve t stack (.number n :: stack)
  | cell {stack : List Value} {v : Value} (hkind : t.kind = .cell)
    (h : (resolve t.text).outcome = .ok v) (hcomma : ¬ v.HasComma) :
    Effect resolve t stack (v :: stack)
  | function {stack : List Value} {operand : Value} {n : Number} (hkind : t.kind = .function)
    (h : applyFunction t.text operand = .ok (.number n)) :
    Effect resolve t (operand :: stack) (.number n :: stack)
  | operator {stack : List Value} {left right : Value} {n : Number} (hkind : t.kind = .operator)
    (h : applyOperator t.text left right = .ok (.number n)) :
    Effect resolve t (right :: left :: stack) (.number n :: stack)

/-- Tokens have no other effects. -/
theorem effect_of_step (h : (step resolve stack t).outcome = .ok stack') :
    Effect resolve t stack stack' := by
  unfold step at h
  split at h
  next hkind =>
    obtain ⟨v, hv, rfl⟩ := exists_of_push h
    obtain ⟨n, rfl⟩ := exists_number_of_numeral hv
    exact .number hkind hv
  next hkind =>
    obtain ⟨v, hv, h⟩ := Traced.bind_outcome_eq_ok.1 h
    by_cases hcomma : v.HasComma
    · rw [checkComma_of_hasComma t.text hcomma] at h
      cases h
    · rw [checkComma_of_not_hasComma t.text hcomma] at h
      obtain rfl := Except.ok.inj h
      exact .cell hkind hv hcomma
  next hkind =>
    split at h
    · obtain ⟨v, hv, rfl⟩ := exists_of_push h
      obtain ⟨n, rfl⟩ := exists_number_of_applyFunction hv
      exact .function hkind hv
    · cases h
  next hkind =>
    split at h
    · obtain ⟨v, hv, rfl⟩ := exists_of_push h
      obtain ⟨n, rfl⟩ := exists_number_of_applyOperator hv
      exact .operator hkind hv
    · cases h
  all_goals cases h

/-! ## Failures -/

/-- Why a token fails. -/
inductive Failure (resolve : String → Traced Value) (t : Token) (stack : List Value) :
    Error → Prop
  | lookup {e : Error} (hkind : t.kind = .cell) (h : (resolve t.text).outcome = .error e) :
    Failure resolve t stack e
  | comma {v : Value} (hkind : t.kind = .cell) (h : (resolve t.text).outcome = .ok v)
    (hcomma : v.HasComma) : Failure resolve t stack (.commaInCell t.text)
  | operand {v : Value} {e : Error} (hkind : t.kind ≠ .cell) (hv : v ∈ stack)
    (h : v.toNumber = .error e) : Failure resolve t stack e
  | machine {e : Error} (hkind : t.kind ≠ .cell) (h : e.IsOfMachine) : Failure resolve t stack e

/-- Tokens fail for no other reason. -/
theorem failure_of_step (h : (step resolve stack t).outcome = .error e) :
    Failure resolve t stack e := by
  unfold step at h
  split at h
  next hkind => exact .machine (by simp [hkind]) (isOfMachine_of_numeral (eq_error_of_push h))
  next hkind =>
    obtain h | ⟨v, hv, h⟩ := Traced.bind_outcome_eq_error.1 h
    · exact .lookup hkind h
    by_cases hcomma : v.HasComma
    · rw [checkComma_of_hasComma t.text hcomma] at h
      cases h
      exact .comma hkind hv hcomma
    · rw [checkComma_of_not_hasComma t.text hcomma] at h
      cases h
  next hkind =>
    have hcell : t.kind ≠ .cell := by simp [hkind]
    split at h
    next v stack =>
      obtain hv | he := applyFunction_eq_error (eq_error_of_push h)
      · exact .operand hcell List.mem_cons_self hv
      · exact .machine hcell he
    next =>
      cases h
      exact .machine hcell (.missingOperand _)
  next hkind =>
    have hcell : t.kind ≠ .cell := by simp [hkind]
    split at h
    next w v stack =>
      obtain hv | hw | he := applyOperator_eq_error (eq_error_of_push h)
      · exact .operand hcell (List.mem_cons_of_mem _ List.mem_cons_self) hv
      · exact .operand hcell List.mem_cons_self hw
      · exact .machine hcell he
    next =>
      cases h
      exact .machine hcell (.missingOperands _)
  all_goals
    next hkind =>
      cases h
      exact .machine (by simp [hkind]) (.unexpectedToken _ _)

end Step

end Machine

end Spreadsheet
