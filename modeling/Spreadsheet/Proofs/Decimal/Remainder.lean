import Spreadsheet.Decimal.Arithmetic
import Spreadsheet.Proofs.Decimal.Fit

/-!
# Remainders

On the scale of the lesser exponent both operands are integers, and the remainder is that of their
division. One of the two has its own coefficient on this scale, and the remainder is no longer than
that. So a remainder of numbers of the format is again a number of the format and is not rounded.

## Main definitions

* `Decimal.exactRem` — the exact remainder.

## Main statements

* `Decimal.rem_eq` — when there is a remainder, and which one is rounded.
* `Decimal.toRat_eq_add_exactRem` — the exact remainder as that of rational numbers.
* `Decimal.rem_eq_exactRem` — remainders that are not rounded.
-/

namespace Spreadsheet.Decimal

variable {a b : Decimal}

/-! ## Division of integers -/

/-- The coefficients on the scale of the lesser exponent. -/
def onScale (a b : Decimal) : Nat × Nat :=
  (a.coefficientAt (min a.exponent b.exponent), b.coefficientAt (min a.exponent b.exponent))

/-- The remainder of the coefficients on the scale of the lesser exponent. It is negative if the
dividend is. -/
def exactRem (a b : Decimal) : Decimal :=
  ⟨a.negative, (onScale a b).1 % (onScale a b).2, min a.exponent b.exponent⟩

theorem onScale_fst_mul (a b : Decimal) :
    ((onScale a b).1 : ℚ) * 10 ^ min a.exponent b.exponent = |a.toRat| :=
  coefficientAt_mul (min_le_left ..)

theorem onScale_snd_mul (a b : Decimal) :
    ((onScale a b).2 : ℚ) * 10 ^ min a.exponent b.exponent = |b.toRat| :=
  coefficientAt_mul (min_le_right ..)

theorem onScale_snd_pos (a : Decimal) (hb : b.isZero = false) : 0 < (onScale a b).2 := by
  have hpos := abs_toRat_pos hb
  rw [← onScale_snd_mul a b] at hpos
  exact_mod_cast pos_of_mul_pos_left hpos (by positivity)

/-- Multiples of the divisor are compared with the dividend on the scale. -/
theorem mul_onScale_le_iff (n : Nat) :
    n * (onScale a b).2 ≤ (onScale a b).1 ↔ n * |b.toRat| ≤ |a.toRat| := by
  have hpos : (0 : ℚ) < 10 ^ min a.exponent b.exponent := by positivity
  rw [← onScale_fst_mul a b, ← onScale_snd_mul a b, ← mul_assoc, mul_le_mul_iff_left₀ hpos]
  exact_mod_cast Iff.rfl

theorem floor_abs_div (a b : Decimal) :
    ⌊|a.toRat / b.toRat|⌋ = (((onScale a b).1 / (onScale a b).2 : Nat) : ℤ) := by
  have hpos : (10 : ℚ) ^ min a.exponent b.exponent ≠ 0 := by positivity
  rw [abs_div, ← onScale_fst_mul a b, ← onScale_snd_mul a b, mul_div_mul_right _ _ hpos,
    Rat.floor_natCast_div_natCast]
  rfl

/-- A leading digit at a lower place means a quotient of zero. -/
theorem onScale_fst_lt (hless : a.adjusted < b.adjusted) (hb : b.isZero = false) :
    (onScale a b).1 < (onScale a b).2 := by
  rw [← Nat.not_le, ← Nat.one_mul (onScale a b).2, mul_onScale_le_iff, Nat.cast_one, one_mul, not_le]
  exact abs_toRat_lt_of_adjusted_lt hless hb

/-- A leading digit that is more than so many places higher means as many digits of the quotient. -/
theorem pow_mul_onScale_snd_le {digits : Nat} (ha : a.isZero = false)
    (hmore : b.adjusted + digits < a.adjusted) :
    10 ^ digits * (onScale a b).2 ≤ (onScale a b).1 := by
  have hplaces : a.adjusted = digits + (a.adjusted - digits) := by omega
  rw [mul_onScale_le_iff]
  refine le_trans ?_ (zpow_adjusted_le ha)
  rw [hplaces, zpow_add₀ (by norm_num), zpow_natCast]
  push_cast
  refine mul_le_mul_of_nonneg_left (b.lt_zpow_adjusted.le.trans ?_) (by positivity)
  exact zpow_le_zpow_right₀ (by norm_num) (by omega)

/-! ## The remainder -/

/-- There is a remainder unless the integer quotient has more digits than the precision. -/
theorem rem_eq (a : Decimal) (hb : b.isZero = false) :
    a.rem b = if 10 ^ format.precision ≤ ⌊|a.toRat / b.toRat|⌋ then .error .invalidOperation
      else round (exactRem a b) := by
  have hy := onScale_snd_pos a hb
  have hlong : 10 ^ format.precision ≤ ⌊|a.toRat / b.toRat|⌋ ↔
      10 ^ format.precision ≤ (onScale a b).1 / (onScale a b).2 := by
    rw [floor_abs_div]
    exact_mod_cast Iff.rfl
  simp only [hlong]
  unfold rem
  dsimp only
  split
  next ha =>
    have hx : (onScale a b).1 = 0 := if_pos (by simpa [isZero] using ha)
    simp [exactRem, hx]
  next ha =>
  rw [Bool.not_eq_true] at ha
  split
  next hless =>
    have hlt : (onScale a b).1 < (onScale a b).2 := onScale_fst_lt (by omega) hb
    rw [Nat.div_eq_of_lt hlt, if_neg (by decide), exactRem, Nat.mod_eq_of_lt hlt]
    rfl
  next =>
  split
  next hmore =>
    -- the digits are not counted here, since the coefficients on the scale may be very long
    have hle : 10 ^ format.precision * (onScale a b).2 ≤ (onScale a b).1 :=
      pow_mul_onScale_snd_le ha (by omega)
    rw [if_pos ((Nat.le_div_iff_mul_le hy).2 hle)]
  next =>
    have hcount : format.precision < digitCount ((onScale a b).1 / (onScale a b).2) ↔
        10 ^ format.precision ≤ (onScale a b).1 / (onScale a b).2 := by
      rw [← Nat.not_le, digitCount_le_iff precision_pos, Nat.not_lt]
    exact if_congr hcount rfl rfl

/-! ## Exactness -/

theorem abs_exactRem_lt (a : Decimal) (hb : b.isZero = false) :
    |(exactRem a b).toRat| < |b.toRat| := by
  rw [abs_toRat (exactRem a b), ← onScale_snd_mul a b]
  have hlt := Nat.mod_lt (onScale a b).1 (onScale_snd_pos a hb)
  exact mul_lt_mul_of_pos_right (by exact_mod_cast hlt) (by positivity)

theorem abs_exactRem_le (a b : Decimal) : |(exactRem a b).toRat| ≤ |a.toRat| := by
  rw [abs_toRat (exactRem a b), ← onScale_fst_mul a b]
  have hle := Nat.mod_le (onScale a b).1 (onScale a b).2
  exact mul_le_mul_of_nonneg_right (by exact_mod_cast hle) (by positivity)

/-- The dividend is the divisor times the quotient without its fraction, and the remainder. -/
theorem toRat_eq_add_exactRem (a b : Decimal) :
    a.toRat = towardZero (a.toRat / b.toRat) * b.toRat + (exactRem a b).toRat := by
  have habs : |a.toRat| =
      (⌊|a.toRat / b.toRat|⌋ : ℚ) * |b.toRat| + |(exactRem a b).toRat| := by
    have hdivide : (onScale a b).1 / (onScale a b).2 * (onScale a b).2 +
        (onScale a b).1 % (onScale a b).2 = (onScale a b).1 := Nat.div_add_mod' ..
    rw [floor_abs_div, abs_toRat (exactRem a b), ← onScale_fst_mul a b, ← onScale_snd_mul a b,
      ← mul_assoc]
    unfold exactRem
    rw [← add_mul, Int.cast_natCast]
    exact_mod_cast congrArg (fun n : Nat => (n : ℚ) * 10 ^ min a.exponent b.exponent) hdivide.symm
  have hnegative : (exactRem a b).negative = a.negative := rfl
  rw [towardZero_toRat_div]
  generalize ⌊|a.toRat / b.toRat|⌋ = k at habs ⊢
  rw [a.toRat_eq, b.toRat_eq, (exactRem a b).toRat_eq, hnegative, habs]
  cases a.negative <;> cases b.negative <;> simp <;> ring

/-- A remainder has the sign of the dividend, if it is not zero. -/
theorem sign_exactRem (h : (exactRem a b).toRat ≠ 0) :
    SignType.sign (exactRem a b).toRat = SignType.sign a.toRat := by
  have hr : (exactRem a b).isZero = false := by
    rw [Bool.eq_false_iff, ne_eq, ← toRat_eq_zero_iff]
    exact h
  have ha : a.isZero = false := by
    rw [Bool.eq_false_iff, ne_eq, ← toRat_eq_zero_iff, ← abs_eq_zero]
    exact ((abs_pos.2 h).trans_le (abs_exactRem_le a b)).ne'
  rw [sign_toRat, sign_toRat, hr, ha]
  rfl

/-! ## Remainders in the format -/

/-- On the scale of the lesser exponent, one of the operands has its own coefficient. -/
theorem digitCount_exactRem_le {digits : Nat} (hb : b.isZero = false)
    (ha : a.exponent ≤ b.exponent → digitCount a.coefficient ≤ digits)
    (hb' : b.exponent ≤ a.exponent → digitCount b.coefficient ≤ digits) :
    digitCount (exactRem a b).coefficient ≤ digits := by
  have hmono : ∀ {m n : Nat}, m ≤ n → digitCount n ≤ digits → digitCount m ≤ digits :=
    fun {m n} hle hn => by
      have hdigits : 0 < digits := (digitCount_pos n).trans_le hn
      rw [digitCount_le_iff hdigits] at hn ⊢
      exact hle.trans_lt hn
  obtain hle | hle := le_total a.exponent b.exponent
  · have hx : (onScale a b).1 = a.coefficient := by
      rw [onScale, min_eq_left hle, coefficientAt_self]
    exact hmono (Nat.mod_le _ _) (hx ▸ ha hle)
  · have hy : (onScale a b).2 = b.coefficient := by
      rw [onScale, min_eq_right hle, coefficientAt_self]
    exact hmono (Nat.mod_lt _ (onScale_snd_pos a hb)).le (hy ▸ hb' hle)

theorem adjusted_exactRem_le (a b : Decimal) : (exactRem a b).adjusted ≤ a.adjusted := by
  cases hzero : (exactRem a b).isZero with
  | true =>
    rw [adjusted_of_isZero hzero]
    exact (min_le_left ..).trans a.exponent_le_adjusted
  | false =>
    have hlt := ((zpow_adjusted_le hzero).trans (abs_exactRem_le a b)).trans_lt a.lt_zpow_adjusted
    have hadjusted := (zpow_lt_zpow_iff_right₀ (by norm_num : (1 : ℚ) < 10)).1 hlt
    omega

/-- A remainder is not rounded if its digits and the exponents of the operands are in the range of
the format. -/
theorem rem_eq_exactRem (hb : b.isZero = false)
    (hcount : digitCount (exactRem a b).coefficient ≤ format.precision)
    (ha : format.leastExponent ≤ a.exponent) (hb' : format.leastExponent ≤ b.exponent)
    (hmax : a.adjusted ≤ format.maxExponent)
    (hq : ⌊|a.toRat / b.toRat|⌋ < 10 ^ format.precision) : a.rem b = .ok (exactRem a b) := by
  rw [rem_eq a hb, if_neg (not_le.2 hq)]
  exact round_eq_self ⟨hcount, le_min ha hb', (adjusted_exactRem_le a b).trans hmax⟩

end Spreadsheet.Decimal
