import Spreadsheet.Formula.Operator
import Spreadsheet.Proofs.Decimal.Order
import Spreadsheet.Proofs.Decimal.Sum

/-!
# Comparisons and differences

Comparisons answer one or zero, and decide the exact order of their operands. A difference is
rounded, but it is never rounded to zero or past it, as long as the operands have no digits below
the least exponent. So it tells the same order as the comparisons, and division by a difference
fails when the operands of the difference are equal, and only then.

## Main definitions

* `BinaryOperator.Decides` — operators that answer whether something holds.

## Main statements

* `BinaryOperator.decides_order` — what the comparisons decide.
* `BinaryOperator.apply_eq_divideByZero_iff` — when a division fails for its divisor.
* `BinaryOperator.difference_tells_order` — differences against comparisons.
-/

namespace Spreadsheet.BinaryOperator

open Decimal

variable {a b d : Decimal} {op : BinaryOperator} {p q : Prop}

/-! ## Comparisons -/

/-- Whether an operator answers one for two decimals if a condition holds, and zero if not. -/
structure Decides (op : BinaryOperator) (a b : Decimal) (p : Prop) : Prop where
  one : p → op.apply (.finite a) (.finite b) = .ok (.ofNat 1)
  zero : ¬p → op.apply (.finite a) (.finite b) = .ok (.ofNat 0)

theorem Decides.eq_one_iff (h : op.Decides a b p) :
    op.apply (.finite a) (.finite b) = .ok (.ofNat 1) ↔ p := by
  refine ⟨fun hone => ?_, h.one⟩
  by_contra hp
  have hzero := (h.zero hp).symm.trans hone
  exact absurd hzero (by decide)

/-- An operator that answers with a truth value decides what this value stands for. -/
theorem Decides.of_truth {holds : Bool} (hholds : holds ↔ p)
    (h : op.apply (.finite a) (.finite b) = .ok (.ofNat (if holds then 1 else 0))) :
    op.Decides a b p := by
  refine ⟨fun hp => ?_, fun hp => ?_⟩
  · rw [h, if_pos (hholds.2 hp)]
  · rw [h, if_neg fun htrue => hp (hholds.1 htrue)]

/-- The comparisons decide the order of the rational numbers that their operands stand for. -/
theorem decides_order (a b : Decimal) :
    (eq.Decides a b (a.toRat = b.toRat) ∧ lt.Decides a b (a.toRat < b.toRat) ∧
        gt.Decides a b (b.toRat < a.toRat)) ∧
      ne.Decides a b (¬a.toRat = b.toRat) ∧ ge.Decides a b (¬a.toRat < b.toRat) ∧
        le.Decides a b (¬b.toRat < a.toRat) := by
  have horder := compares_compare a b
  have hlt := horder.eq_lt
  have heq := horder.eq_eq
  have hgt := horder.eq_gt
  have hequals : (Number.compare? (.finite a) (.finite b) == some .eq) = (a.compare b == .eq) := rfl
  refine ⟨⟨?_, ?_, ?_⟩, ?_, ?_, ?_⟩ <;> refine .of_truth ?_ rfl
  · rw [← heq, hequals, beq_iff_eq]
  · rw [← hlt, beq_iff_eq]
  · rw [← hgt, beq_iff_eq]
  · rw [← heq, hequals, Bool.not_eq_true', beq_eq_false_iff_ne]
  · rw [← hlt, bne_iff_ne]
  · rw [← hgt, bne_iff_ne]

/-- One of two numbers is less, or they are equal, and the comparisons tell which. -/
theorem existsUnique_comparison (a b : Decimal) :
    ∃! op, op ∈ [eq, lt, gt] ∧ op.apply (.finite a) (.finite b) = .ok (.ofNat 1) := by
  obtain ⟨⟨heq, hlt, hgt⟩, -⟩ := decides_order a b
  simp only [List.mem_cons, List.not_mem_nil, or_false]
  obtain hless | hequal | hgreater := lt_trichotomy a.toRat b.toRat
  · refine ⟨lt, ⟨by simp, hlt.one hless⟩, ?_⟩
    rintro op ⟨rfl | rfl | rfl, hone⟩
    · exact absurd (heq.eq_one_iff.1 hone) hless.ne
    · rfl
    · exact absurd (hgt.eq_one_iff.1 hone) hless.not_gt
  · refine ⟨eq, ⟨by simp, heq.one hequal⟩, ?_⟩
    rintro op ⟨rfl | rfl | rfl, hone⟩
    · rfl
    · exact absurd (hlt.eq_one_iff.1 hone) hequal.not_lt
    · exact absurd (hgt.eq_one_iff.1 hone) hequal.not_gt
  · refine ⟨gt, ⟨by simp, hgt.one hgreater⟩, ?_⟩
    rintro op ⟨rfl | rfl | rfl, hone⟩
    · exact absurd (heq.eq_one_iff.1 hone) hgreater.ne'
    · exact absurd (hlt.eq_one_iff.1 hone) hgreater.not_gt
    · rfl

/-! ## Differences -/

/-- A difference of numbers without digits below the least exponent overflows, or has the sign of
the exact difference. -/
theorem apply_sub_cases (ha : format.leastExponent ≤ a.exponent)
    (hb : format.leastExponent ≤ b.exponent) :
    sub.apply (.finite a) (.finite b) = .error (.arithmetic .overflow) ∨
      ∃ d, sub.apply (.finite a) (.finite b) = .ok (.finite d) ∧
        SignType.sign d.toRat = SignType.sign (a.toRat - b.toRat) := by
  have happly : sub.apply (.finite a) (.finite b) = ofArithmetic ((a.sub b).map .finite) := rfl
  rw [happly]
  cases h : a.sub b with
  | error s =>
    left
    rw [add_eq_error h]
    rfl
  | ok d => exact .inr ⟨d, rfl, sign_sub ha hb h⟩

/-- A division fails for its divisor if that is zero, and only then. -/
theorem apply_eq_divideByZero_iff (hop : op ∈ [div, mod, quotient]) (x : Number) (d : Decimal) :
    op.apply x (.finite d) = .error (.divideByZero op.symbol) ↔ d.toRat = 0 := by
  obtain ⟨r, hr⟩ : ∃ r, op.apply x (.finite d) = op.unlessZero (.finite d) r := by
    simp only [List.mem_cons, List.not_mem_nil, or_false] at hop
    obtain rfl | rfl | rfl := hop <;> exact ⟨_, rfl⟩
  have hzero : Number.isZero (.finite d) = d.isZero := rfl
  rw [hr, toRat_eq_zero_iff, unlessZero, hzero]
  split
  next h => exact iff_of_true rfl h
  next h =>
    refine iff_of_false (fun hfail => ?_) h
    cases r <;> cases hfail

/-- Comparisons and differences tell the same order. The comparisons decide it exactly. A difference
overflows, or it is zero if the numbers are equal and otherwise has the sign of the exact
difference; so it is a divisor that division refuses if and only if the numbers are equal. -/
theorem difference_tells_order (a b : Decimal) (ha : format.leastExponent ≤ a.exponent)
    (hb : format.leastExponent ≤ b.exponent) :
    ((eq.Decides a b (a.toRat = b.toRat) ∧ lt.Decides a b (a.toRat < b.toRat) ∧
        gt.Decides a b (b.toRat < a.toRat)) ∧
      ne.Decides a b (¬a.toRat = b.toRat) ∧ ge.Decides a b (¬a.toRat < b.toRat) ∧
        le.Decides a b (¬b.toRat < a.toRat)) ∧
    (∃! op, op ∈ [eq, lt, gt] ∧ op.apply (.finite a) (.finite b) = .ok (.ofNat 1)) ∧
    (sub.apply (.finite a) (.finite b) = .error (.arithmetic .overflow) ∨
      ∃ d, sub.apply (.finite a) (.finite b) = .ok (.finite d) ∧
        (d.toRat = 0 ↔ eq.apply (.finite a) (.finite b) = .ok (.ofNat 1)) ∧
        (d.toRat < 0 ↔ lt.apply (.finite a) (.finite b) = .ok (.ofNat 1)) ∧
        (0 < d.toRat ↔ gt.apply (.finite a) (.finite b) = .ok (.ofNat 1)) ∧
        ∀ op ∈ [div, mod, quotient], ∀ x,
          op.apply x (.finite d) = .error (.divideByZero op.symbol) ↔ a.toRat = b.toRat) := by
  obtain ⟨⟨heq, hlt, hgt⟩, -⟩ := decides_order a b
  refine ⟨decides_order a b, existsUnique_comparison a b, (apply_sub_cases ha hb).imp_right ?_⟩
  rintro ⟨d, hd, hsign⟩
  have hzero : d.toRat = 0 ↔ a.toRat = b.toRat := by
    rw [← sign_eq_zero_iff, hsign, sign_eq_zero_iff, sub_eq_zero]
  refine ⟨d, hd, ?_, ?_, ?_, fun op hop x => ?_⟩
  · rw [heq.eq_one_iff, hzero]
  · rw [hlt.eq_one_iff, ← sign_eq_neg_one_iff, hsign, sign_eq_neg_one_iff, sub_neg]
  · rw [hgt.eq_one_iff, ← sign_eq_one_iff, hsign, sign_eq_one_iff, sub_pos]
  · rw [apply_eq_divideByZero_iff hop, hzero]

/-- The least distance of numbers without digits below the least exponent. -/
theorem difference_tells_order_least :
    ∃ d, sub.apply (.finite ⟨false, 10 ^ 28 + 1, -1000026⟩) (.finite ⟨false, 10 ^ 28, -1000026⟩) =
        .ok (.finite d) ∧ 0 < d.toRat ∧
      ∀ x, div.apply x (.finite d) ≠ .error (.divideByZero div.symbol) := by
  have hleast : format.leastExponent ≤ -1000026 := by decide
  have hgreater : gt.apply (.finite ⟨false, 10 ^ 28 + 1, -1000026⟩)
      (.finite ⟨false, 10 ^ 28, -1000026⟩) = .ok (.ofNat 1) := by decide +kernel
  obtain ⟨-, -, hoverflow | ⟨d, hd, -, -, hpos, -⟩⟩ :=
    difference_tells_order ⟨false, 10 ^ 28 + 1, -1000026⟩ ⟨false, 10 ^ 28, -1000026⟩ hleast hleast
  · have hresult : sub.apply (.finite ⟨false, 10 ^ 28 + 1, -1000026⟩)
        (.finite ⟨false, 10 ^ 28, -1000026⟩) ≠ .error (.arithmetic .overflow) := by decide +kernel
    exact absurd hoverflow hresult
  · refine ⟨d, hd, hpos.2 hgreater, fun x hfail => ?_⟩
    rw [apply_eq_divideByZero_iff (by simp)] at hfail
    exact (hpos.2 hgreater).ne' hfail

end Spreadsheet.BinaryOperator
