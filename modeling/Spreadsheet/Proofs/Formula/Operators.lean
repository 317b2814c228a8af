import Spreadsheet.Formula.Operator
import Spreadsheet.Proofs.Formula.Traced

/-!
# Results of operators

An operator leads from decimals to a decimal. If that is a zero, arithmetic has kept its exponent in
range. An operator fails with a signal of arithmetic, or because its divisor is zero. Functions are
operators whose right operand is one.

## Main definitions

* `Decimal.ZeroInRange` — decimals that are no zeros out of range.

## Main statements

* `BinaryOperator.exists_of_apply` — the results of operators.
* `BinaryOperator.apply_eq_error` — their errors.
* `UnaryFunction.exists_apply_eq` — functions as operators.
-/

namespace Spreadsheet

variable {d r x y : Decimal}

/-! ## Zeros in range -/

namespace Decimal

/-- Whether a number is not a zero that a literal cannot have. -/
def ZeroInRange (d : Decimal) : Prop :=
  d.isZero → d.isRepresentable

theorem isRepresentable_of_isZero (hzero : d.isZero) (h : leastExponent ≤ d.exponent)
    (h' : d.exponent ≤ greatestExponent) : d.isRepresentable := by
  rw [isRepresentable, if_pos hzero, decide_eq_true h, decide_eq_true h']
  rfl

theorem zeroInRange_of_exponent (h : format.leastExponent ≤ d.exponent)
    (h' : d.exponent ≤ format.maxExponent) : d.ZeroInRange := by
  have hleast : leastExponent ≤ format.leastExponent := by decide
  have hgreatest : format.maxExponent ≤ greatestExponent := by decide
  exact fun hzero => isRepresentable_of_isZero hzero (by omega) (by omega)

theorem zeroInRange_integer (negative : Bool) (n : Nat) : ZeroInRange ⟨negative, n, 0⟩ :=
  zeroInRange_of_exponent (show _ ≤ (0 : Int) by decide) (show (0 : Int) ≤ _ by decide)

theorem zeroInRange_of_adjusted (h : format.leastExponent ≤ d.exponent)
    (h' : d.adjusted ≤ format.maxExponent) : d.ZeroInRange := by
  intro hzero
  refine zeroInRange_of_exponent h ?_ hzero
  have hcoefficient : d.coefficient = 0 := by simpa [isZero] using hzero
  have hadjusted : d.adjusted = d.exponent := by
    rw [adjusted, hcoefficient]
    exact Int.add_zero _
  rwa [hadjusted] at h'

theorem leastExponent_le_fit (f : Format) (d : Decimal) : f.leastExponent ≤ (f.fit d).exponent := by
  unfold Format.fit Format.targetExponent
  dsimp only
  split <;> dsimp only <;> omega

theorem zeroInRange_of_round (h : round d = .ok r) : r.ZeroInRange := by
  unfold round Format.round at h
  split at h
  · obtain rfl := Except.ok.inj h
    apply zeroInRange_of_exponent <;> simp only [format, Format.leastExponent] <;> omega
  · dsimp only at h
    split at h
    · cases h
    next hmax =>
      obtain rfl := Except.ok.inj h
      exact zeroInRange_of_adjusted (leastExponent_le_fit _ _) (by omega)

theorem zeroInRange_of_rem (h : rem x y = .ok r) : r.ZeroInRange := by
  unfold rem at h
  dsimp only at h
  split at h
  · exact zeroInRange_of_round h
  split at h
  · exact zeroInRange_of_round h
  split at h
  · cases h
  split at h
  · cases h
  · exact zeroInRange_of_round h

theorem isZero_raiseZero (d : Decimal) : d.raiseZero.isZero = d.isZero := by
  unfold raiseZero
  split <;> rfl

theorem zeroInRange_raiseZero (h : d.exponent ≤ 0) : d.raiseZero.ZeroInRange := by
  intro hzero
  have hexponent : d.raiseZero.exponent = max leastExponent d.exponent := by
    rw [isZero_raiseZero] at hzero
    rw [raiseZero, if_pos hzero]
  have hgreatest : 0 ≤ greatestExponent ∧ leastExponent ≤ greatestExponent := by decide
  exact isRepresentable_of_isZero hzero (by omega) (by omega)

theorem zeroInRange_truncate (h : d.ZeroInRange) : d.truncate.ZeroInRange := by
  unfold truncate
  split
  · exact h
  · exact zeroInRange_integer _ _

end Decimal

open Decimal

namespace BinaryOperator

variable {a b n : Number} {e : Error}

/-! ## Results -/

theorem ofArithmetic_eq_ok {r : Except Decimal.Signal Number} (h : ofArithmetic r = .ok n) :
    r = .ok n := by
  cases r with
  | error s => cases h
  | ok m => exact congrArg _ (Except.ok.inj h)

theorem unlessZero_eq_ok {op : BinaryOperator} {r : Except Decimal.Signal Number}
    (h : op.unlessZero b r = .ok n) : r = .ok n := by
  unfold unlessZero at h
  split at h
  · cases h
  · exact ofArithmetic_eq_ok h

theorem exists_of_map {q : Except Signal Decimal} (h : q.map Number.finite = .ok n)
    (hq : ∀ r, q = .ok r → r.ZeroInRange) : ∃ r, n = .finite r ∧ r.ZeroInRange := by
  obtain ⟨r, hr, rfl⟩ := exists_of_map_eq_ok h
  exact ⟨r, rfl, hq r hr⟩

theorem exists_of_ofComparison {q : Except Signal Bool} (h : ofComparison q = .ok n) :
    ∃ r, n = .finite r ∧ r.ZeroInRange := by
  obtain ⟨holds, -, rfl⟩ := exists_of_map_eq_ok (ofArithmetic_eq_ok h)
  exact ⟨_, rfl, zeroInRange_integer _ _⟩

/-- The results of operators on decimals are decimals, and the zeros among them are in range. -/
theorem exists_of_apply (op : BinaryOperator) (h : op.apply (.finite x) (.finite y) = .ok n) :
    ∃ r, n = .finite r ∧ r.ZeroInRange := by
  cases op with
  | add | sub | mul => exact exists_of_map (ofArithmetic_eq_ok h) fun _ => zeroInRange_of_round
  | div => exact exists_of_map (unlessZero_eq_ok h) fun _ => zeroInRange_of_round
  | mod => exact exists_of_map (unlessZero_eq_ok h) fun _ => zeroInRange_of_rem
  | quotient =>
    obtain ⟨m, hm, rfl⟩ := exists_of_map_eq_ok (unlessZero_eq_ok h)
    obtain ⟨r, rfl, hr⟩ := exists_of_map hm fun _ => zeroInRange_of_round
    exact ⟨r.truncate, rfl, zeroInRange_truncate hr⟩
  | eq | ne | lt | gt | le | ge => exact exists_of_ofComparison h

/-! ## Errors -/

theorem ofArithmetic_eq_error {r : Except Decimal.Signal Number}
    (h : ofArithmetic r = .error e) : ∃ s, e = .arithmetic s := by
  cases r with
  | error s => exact ⟨s, (Except.error.inj h).symm⟩
  | ok m => cases h

/-- Operators fail with signals of arithmetic, or because a divisor is zero. -/
theorem apply_eq_error (op : BinaryOperator) (h : op.apply a b = .error e) :
    (∃ s, e = .arithmetic s) ∨ e = .divideByZero op.symbol := by
  have hdivision : ∀ r, op.unlessZero b r = .error e →
      (∃ s, e = .arithmetic s) ∨ e = .divideByZero op.symbol := by
    intro r hr
    unfold unlessZero at hr
    split at hr
    · exact .inr (Except.error.inj hr).symm
    · exact .inl (ofArithmetic_eq_error hr)
  cases op with
  | div | mod | quotient => exact hdivision _ h
  | add | sub | mul | eq | ne | lt | gt | le | ge => exact .inl (ofArithmetic_eq_error h)

end BinaryOperator

/-- A function adds or subtracts one. -/
theorem UnaryFunction.exists_apply_eq (f : UnaryFunction) (a : Number) :
    ∃ op : BinaryOperator, f.apply a = op.apply a (.ofNat 1) := by
  cases f with
  | inc => exact ⟨.add, rfl⟩
  | dec => exact ⟨.sub, rfl⟩

end Spreadsheet
