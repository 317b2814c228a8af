import Mathlib.Order.Compare
import Spreadsheet.Proofs.Decimal.Magnitude

/-!
# The order of decimals

Decimals are compared as the rational numbers that they stand for. The signs decide first, then the
places of the leading digits, and only then the coefficients on a common scale.

## Main statements

* `Decimal.compares_compareMagnitude` — the order of absolute values.
* `Decimal.compares_compare` — the order of decimals.
-/

namespace Spreadsheet.Decimal

variable {a b d : Decimal}

/-! ## Absolute values -/

/-- On a common scale, absolute values are ordered like the coefficients. -/
theorem compares_coefficientAt (a b : Decimal) {e : ℤ} (ha : e ≤ a.exponent)
    (hb : e ≤ b.exponent) :
    (Ord.compare (a.coefficientAt e) (b.coefficientAt e)).Compares |a.toRat| |b.toRat| := by
  have hpos : (0 : ℚ) < 10 ^ e := by positivity
  rw [← coefficientAt_mul ha, ← coefficientAt_mul hb]
  cases h : Ord.compare (a.coefficientAt e) (b.coefficientAt e) with
  | lt => exact mul_lt_mul_of_pos_right (by exact_mod_cast compare_lt_iff_lt.1 h) hpos
  | eq => exact congrArg (fun n : Nat => (n : ℚ) * 10 ^ e) (compare_eq_iff_eq.1 h)
  | gt => exact mul_lt_mul_of_pos_right (by exact_mod_cast compare_gt_iff_gt.1 h) hpos

theorem compares_compareMagnitude (ha : a.isZero = false) (hb : b.isZero = false) :
    (a.compareMagnitude b).Compares |a.toRat| |b.toRat| := by
  unfold compareMagnitude
  dsimp only
  cases h : Ord.compare a.adjusted b.adjusted with
  | lt => exact abs_toRat_lt_of_adjusted_lt (compare_lt_iff_lt.1 h) hb
  | eq => exact compares_coefficientAt a b (min_le_left ..) (min_le_right ..)
  | gt => exact abs_toRat_lt_of_adjusted_lt (compare_gt_iff_gt.1 h) ha

/-! ## Signs -/

theorem sign_pos_iff : 0 < d.sign ↔ 0 < d.toRat := by
  rw [← sign_eq_one_iff (a := d.toRat), sign_toRat]
  unfold sign
  cases d.isZero <;> cases d.negative <;> decide

theorem sign_neg_iff : d.sign < 0 ↔ d.toRat < 0 := by
  rw [← sign_eq_neg_one_iff (a := d.toRat), sign_toRat]
  unfold sign
  cases d.isZero <;> cases d.negative <;> decide

theorem abs_sign_le (d : Decimal) : -1 ≤ d.sign ∧ d.sign ≤ 1 := by
  unfold sign
  cases d.isZero <;> cases d.negative <;> decide

theorem toRat_lt_of_sign_lt (h : a.sign < b.sign) : a.toRat < b.toRat := by
  have hb := b.abs_sign_le
  obtain hpos | hpos := lt_or_ge 0 b.sign
  · have ha : a.toRat ≤ 0 := not_lt.1 fun ha => by
      have hsign := sign_pos_iff.2 ha
      omega
    exact ha.trans_lt (sign_pos_iff.1 hpos)
  · have hb : 0 ≤ b.toRat := not_lt.1 fun hneg => by
      have hsign := sign_neg_iff.2 hneg
      have ha := a.abs_sign_le
      omega
    exact (sign_neg_iff.1 (h.trans_le hpos)).trans_le hb

/-- Numbers of one sign are both zeros, or neither is and both are negative or both are not. -/
theorem negative_eq_of_sign_eq (h : a.sign = b.sign) (ha : a.isZero = false) :
    b.isZero = false ∧ b.negative = a.negative := by
  unfold sign at h
  rw [ha] at h
  revert h
  cases b.isZero <;> cases a.negative <;> cases b.negative <;> decide

theorem compares_compare_sign (h : a.sign ≠ b.sign) :
    (Ord.compare a.sign b.sign).Compares a.toRat b.toRat := by
  cases hsign : Ord.compare a.sign b.sign with
  | lt => exact toRat_lt_of_sign_lt (compare_lt_iff_lt.1 hsign)
  | eq => exact absurd (compare_eq_iff_eq.1 hsign) h
  | gt => exact toRat_lt_of_sign_lt (compare_gt_iff_gt.1 hsign)

/-! ## Decimals -/

/-- Comparing two decimals gives the order of the rational numbers that they stand for. -/
theorem compares_compare (a b : Decimal) : (a.compare b).Compares a.toRat b.toRat := by
  unfold compare
  split
  next hsign => exact compares_compare_sign hsign
  next hsign =>
    rw [not_not] at hsign
    split
    next ha =>
      have hb : b.isZero := by
        rw [← Bool.not_eq_false]
        intro hb
        have hzero := (negative_eq_of_sign_eq hsign.symm hb).1
        rw [ha] at hzero
        cases hzero
      rw [toRat_of_isZero ha, toRat_of_isZero hb]
      rfl
    next ha =>
      rw [Bool.not_eq_true] at ha
      obtain ⟨hb, hnegative⟩ := negative_eq_of_sign_eq hsign ha
      rw [a.toRat_eq, b.toRat_eq, hnegative]
      split
      next hneg =>
        have hcompares := compares_compareMagnitude hb ha
        cases h : b.compareMagnitude a with
        | lt => exact neg_lt_neg (hcompares.eq_lt.1 h)
        | eq => exact congrArg Neg.neg (hcompares.eq_eq.1 h).symm
        | gt => exact neg_lt_neg (hcompares.eq_gt.1 h)
      next => exact compares_compareMagnitude ha hb

end Spreadsheet.Decimal
