import Mathlib.Data.Sign.Basic
import Spreadsheet.Proofs.Decimal.Nearest

/-!
# Absolute values and leading digits

The absolute value of a decimal lies between the power of ten of its leading digit and the next one.
Its sign is that of the decimal, unless the decimal is a zero.

## Main statements

* `Decimal.zpow_adjusted_le`, `Decimal.lt_zpow_adjusted`, `Decimal.log_abs_toRat` — the place of the
  leading digit.
* `Decimal.sign_toRat` — the sign of the rational number.
-/

namespace Spreadsheet.Decimal

variable {d a b : Decimal} {e : ℤ}

/-! ## Absolute values -/

theorem abs_toRat (d : Decimal) : |d.toRat| = d.coefficient * 10 ^ d.exponent := by
  have hnonneg : (0 : ℚ) ≤ d.coefficient * 10 ^ d.exponent := by positivity
  unfold toRat
  split
  · rw [neg_one_mul, neg_mul, abs_neg, abs_of_nonneg hnonneg]
  · rw [one_mul, abs_of_nonneg hnonneg]

theorem toRat_eq (d : Decimal) : d.toRat = if d.negative then -|d.toRat| else |d.toRat| := by
  rw [abs_toRat]
  unfold toRat
  split <;> ring

theorem isMultiple_abs_toRat (d : Decimal) : IsMultiple d.exponent |d.toRat| :=
  ⟨d.coefficient, by rw [abs_toRat]; push_cast; rfl⟩

theorem toRat_eq_zero_iff : d.toRat = 0 ↔ d.isZero := by
  have hpower : (10 : ℚ) ^ d.exponent ≠ 0 := by positivity
  rw [← abs_eq_zero, abs_toRat, mul_eq_zero, or_iff_left hpower, Nat.cast_eq_zero]
  simp [isZero]

theorem abs_toRat_pos (h : d.isZero = false) : 0 < |d.toRat| :=
  abs_pos.2 fun hzero => by simp [toRat_eq_zero_iff.1 hzero] at h

/-! ## The leading digit -/

theorem lt_pow_digitCount (n : Nat) : n < 10 ^ digitCount n :=
  (digitCount_le_iff (digitCount_pos n)).1 le_rfl

theorem exponent_le_adjusted (d : Decimal) : d.exponent ≤ d.adjusted := by
  have hcount := digitCount_pos d.coefficient
  unfold adjusted
  omega

theorem adjusted_of_isZero (h : d.isZero) : d.adjusted = d.exponent := by
  have hcoefficient : d.coefficient = 0 := by simpa [isZero] using h
  rw [adjusted, hcoefficient]
  exact Int.add_zero _

theorem zpow_adjusted_le (h : d.isZero = false) : 10 ^ d.adjusted ≤ |d.toRat| := by
  have hcount := digitCount_pos d.coefficient
  obtain ⟨k, hk⟩ : ∃ k, digitCount d.coefficient = k + 1 := Nat.exists_eq_succ_of_ne_zero hcount.ne'
  have hle : 10 ^ k ≤ d.coefficient := ((digitCount_eq_iff (coefficient_pos h)).1 hk).1
  have hadjusted : d.adjusted = k + d.exponent := by
    unfold adjusted
    omega
  rw [abs_toRat, hadjusted, zpow_add₀ (by norm_num), zpow_natCast]
  exact mul_le_mul_of_nonneg_right (by exact_mod_cast hle) (by positivity)

theorem lt_zpow_adjusted (d : Decimal) : |d.toRat| < 10 ^ (d.adjusted + 1) := by
  have hadjusted : d.adjusted + 1 = (digitCount d.coefficient : ℤ) + d.exponent := by
    unfold adjusted
    omega
  rw [abs_toRat, hadjusted, zpow_add₀ (by norm_num), zpow_natCast]
  exact mul_lt_mul_of_pos_right (by exact_mod_cast lt_pow_digitCount d.coefficient) (by positivity)

/-- The leading digit tells the greatest power of ten that is not above the number. -/
theorem zpow_le_abs_toRat_iff (h : d.isZero = false) : 10 ^ e ≤ |d.toRat| ↔ e ≤ d.adjusted := by
  have hten : (1 : ℚ) < 10 := by norm_num
  refine ⟨fun hle => Int.le_of_lt_add_one ?_, fun hle => ?_⟩
  · exact (zpow_lt_zpow_iff_right₀ hten).1 (hle.trans_lt d.lt_zpow_adjusted)
  · exact (zpow_le_zpow_right₀ hten.le hle).trans (zpow_adjusted_le h)

theorem log_abs_toRat (h : d.isZero = false) : Int.log 10 |d.toRat| = d.adjusted := by
  have hlog : ∀ j : ℤ, (10 : ℚ) ^ j ≤ |d.toRat| ↔ j ≤ Int.log 10 |d.toRat| := fun j => by
    simpa using Int.zpow_le_iff_le_log (by decide : 1 < 10) (abs_toRat_pos h)
  refine le_antisymm ?_ ?_
  · rw [← zpow_le_abs_toRat_iff h, hlog]
  · rw [← hlog, zpow_le_abs_toRat_iff h]

theorem adjusted_lt_of_lt {n : Nat} (h : d.isZero = false) (hlt : |d.toRat| < 10 ^ n) :
    d.adjusted < n := by
  rw [← not_le, ← zpow_le_abs_toRat_iff h, zpow_natCast, not_le]
  exact hlt

theorem abs_toRat_lt_of_adjusted_lt (ha : a.adjusted < b.adjusted) (hb : b.isZero = false) :
    |a.toRat| < |b.toRat| :=
  a.lt_zpow_adjusted.trans_le ((zpow_le_abs_toRat_iff hb).2 ha)

/-! ## Signs -/

theorem sign_toRat (d : Decimal) :
    SignType.sign d.toRat = if d.isZero then 0 else if d.negative then -1 else 1 := by
  split
  next h => rw [toRat_eq_zero_iff.2 h, sign_zero]
  next h =>
    have hpos := abs_toRat_pos (Bool.eq_false_iff.2 h)
    rw [toRat_eq]
    split
    · exact sign_neg (neg_neg_of_pos hpos)
    · exact sign_pos hpos

theorem toRat_neg (d : Decimal) : d.neg.toRat = -d.toRat := by
  unfold toRat neg
  cases d.negative <;> simp

/-- A quotient is negative if one of the numbers is and the other is not. -/
theorem toRat_div_toRat (a b : Decimal) :
    a.toRat / b.toRat =
      if a.negative != b.negative then -|a.toRat / b.toRat| else |a.toRat / b.toRat| := by
  rw [abs_div, a.toRat_eq, b.toRat_eq]
  cases a.negative <;> cases b.negative <;> simp [neg_div, div_neg]

theorem towardZero_toRat_div (a b : Decimal) :
    towardZero (a.toRat / b.toRat) =
      if a.negative != b.negative then -⌊|a.toRat / b.toRat|⌋ else ⌊|a.toRat / b.toRat|⌋ := by
  have hnonneg := abs_nonneg (a.toRat / b.toRat)
  rw [toRat_div_toRat a b]
  split
  · rw [towardZero_neg_of_nonneg hnonneg, abs_neg, abs_abs]
  · rw [towardZero_of_nonneg hnonneg, abs_abs]

/-- A sum has the sign of the greater summand. -/
theorem sign_add_of_abs_lt {x y : ℚ} (h : |y| < |x|) :
    SignType.sign (x + y) = SignType.sign x := by
  obtain ⟨hlow, hhigh⟩ := abs_lt.1 h
  obtain hx | hx := le_or_gt 0 x
  · rw [abs_of_nonneg hx] at hlow hhigh
    rw [sign_pos (by linarith), sign_pos (by linarith)]
  · rw [abs_of_neg hx] at hlow hhigh
    rw [sign_neg (by linarith), sign_neg hx]

/-! ## Coefficients on a finer scale -/

theorem coefficientAt_mul (h : e ≤ d.exponent) :
    (d.coefficientAt e : ℚ) * 10 ^ e = |d.toRat| := by
  obtain ⟨k, hk⟩ := Int.le.dest h
  rw [abs_toRat, ← hk, zpow_add₀ (by norm_num), zpow_natCast]
  by_cases hzero : d.coefficient = 0
  · simp [coefficientAt, hzero]
  · simp only [coefficientAt, hzero, if_false, ← hk, add_sub_cancel_left, Int.toNat_natCast,
      Nat.pow_eq]
    push_cast
    ring

@[simp] theorem coefficientAt_self (d : Decimal) : d.coefficientAt d.exponent = d.coefficient := by
  unfold coefficientAt
  split
  next h => exact h.symm
  next => simp

theorem signedAt_mul (h : e ≤ d.exponent) : (d.signedAt e : ℚ) * 10 ^ e = d.toRat := by
  rw [toRat_eq, ← coefficientAt_mul h]
  unfold signedAt
  split
  · push_cast
    ring
  · push_cast
    rfl

end Spreadsheet.Decimal
