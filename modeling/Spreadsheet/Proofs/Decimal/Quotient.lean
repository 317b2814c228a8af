import Mathlib.Data.Nat.Cast.Field
import Spreadsheet.Proofs.Decimal.Sum

/-!
# Quotients

A quotient is the exact rational quotient, rounded half to even at the last place. It is computed
from more digits than the precision, and when it is not exact the digits that follow are replaced by
a single one: the two numbers lie between the same neighbours, so they are rounded alike. Without
its fraction, a quotient is the integer part of the exact one, or the next integer if it is rounded
up to that.

## Main definitions

* `Decimal.Format.lastPlaceOf` — the last place that a format has for a rational number.

## Main statements

* `Decimal.sameDigits_longQuotient` — the computed quotient against the exact one.
* `Decimal.abs_toRat_fit_longQuotient`, `Decimal.exists_div_eq` — quotients are rounded once.
* `Decimal.abs_toRat_truncate` — numbers without their fraction.
* `Decimal.exists_truncate_div` — integer quotients.
-/

namespace Spreadsheet.Decimal

variable {f : Format} {a b d r : Decimal}

/-! ## The computed quotient -/

theorem toRat_dropZeros (k : Nat) (d : Decimal) : (dropZeros k d).toRat = d.toRat := by
  induction k generalizing d with
  | zero => rfl
  | succ k ih =>
    unfold dropZeros
    split
    next hzero =>
      obtain ⟨n, hn⟩ := Nat.dvd_of_mod_eq_zero hzero
      rw [ih]
      unfold toRat
      dsimp only
      rw [hn, Nat.mul_div_cancel_left _ (by decide), zpow_add_one₀ (by norm_num)]
      push_cast
      ring
    next => rfl

/-- Shifting the coefficients against one another shifts the exponent of the quotient. -/
theorem abs_toRat_div_eq (a : Decimal) (hb : b.isZero = false) (shift : ℤ) :
    |a.toRat / b.toRat| =
      ((a.coefficient * 10 ^ shift.toNat : Nat) : ℚ) / (b.coefficient * 10 ^ (-shift).toNat : Nat) *
        10 ^ (a.exponent - b.exponent - shift) := by
  have hcoefficient : (b.coefficient : ℚ) ≠ 0 := by exact_mod_cast (coefficient_pos hb).ne'
  have hexponent : a.exponent + (-shift).toNat =
      a.exponent - b.exponent - shift + (b.exponent + shift.toNat) := by omega
  have hpower : (10 : ℚ) ^ a.exponent * 10 ^ (-shift).toNat =
      10 ^ (a.exponent - b.exponent - shift) * (10 ^ b.exponent * 10 ^ shift.toNat) := by
    simp only [← zpow_natCast, ← zpow_add₀ (by norm_num : (10 : ℚ) ≠ 0), hexponent]
  rw [abs_div, abs_toRat, abs_toRat, div_mul_eq_mul_div, div_eq_div_iff (by positivity)
    (by push_cast; positivity)]
  push_cast
  calc (a.coefficient * 10 ^ a.exponent * (b.coefficient * 10 ^ (-shift).toNat) : ℚ)
      = a.coefficient * b.coefficient * (10 ^ a.exponent * 10 ^ (-shift).toNat) := by ring
    _ = a.coefficient * 10 ^ shift.toNat * 10 ^ (a.exponent - b.exponent - shift) *
          (b.coefficient * 10 ^ b.exponent) := by
        rw [hpower]
        ring

/-- In place of all the digits that follow, a last digit `1` stays between the same neighbours. -/
theorem sameDigits_lastDigit {n m : Nat} (hm : 0 < m) (h : n % m ≠ 0) (e : ℤ) :
    SameDigits e ((n : ℚ) / m * 10 ^ e) (((10 * (n / m) + 1 : Nat) : ℚ) * 10 ^ (e - 1)) := by
  have hmpos : (0 : ℚ) < m := by exact_mod_cast hm
  have hpos : (0 : ℚ) < 10 ^ e := by positivity
  have hdivide : m * (n / m) + n % m = n := Nat.div_add_mod n m
  have hbelow : m * (n / m) < n := by omega
  have habove : n < m * (n / m + 1) := Nat.lt_mul_div_succ n hm
  have hlast : ((10 * (n / m) + 1 : Nat) : ℚ) * 10 ^ (e - 1) =
      (((n / m : Nat) : ℚ) + 1 / 10) * 10 ^ e := by
    rw [zpow_sub_one₀ (by norm_num)]
    push_cast
    ring
  rw [hlast]
  generalize n / m = q at *
  refine .between q ?_ ?_ ?_ ?_ <;> refine mul_lt_mul_of_pos_right ?_ hpos
  · rw [lt_div_iff₀ hmpos, mul_comm]
    exact_mod_cast hbelow
  · rw [div_lt_iff₀ hmpos, mul_comm]
    exact_mod_cast habove
  · push_cast
    linarith
  · push_cast
    linarith

theorem zpow_le_abs_toRat_div (ha : a.isZero = false) (hb : b.isZero = false) :
    10 ^ (a.adjusted - b.adjusted - 1) ≤ |a.toRat / b.toRat| := by
  have hbelow := b.lt_zpow_adjusted.le
  rw [abs_div, le_div_iff₀ (abs_toRat_pos hb)]
  calc (10 : ℚ) ^ (a.adjusted - b.adjusted - 1) * |b.toRat|
      ≤ 10 ^ (a.adjusted - b.adjusted - 1) * 10 ^ (b.adjusted + 1) := by gcongr
    _ = 10 ^ a.adjusted := by
        rw [← zpow_add₀ (by norm_num), sub_sub, sub_add_cancel]
    _ ≤ |a.toRat| := zpow_adjusted_le ha

/-- The computed quotient and the exact one only differ below a place that comes after more digits
than the precision. -/
theorem sameDigits_longQuotient (f : Format) (ha : a.isZero = false) (hb : b.isZero = false) :
    ∃ e : ℤ, SameDigits e |a.toRat / b.toRat| |(longQuotient f a b).toRat| ∧
      10 ^ (f.precision + e) ≤ |a.toRat / b.toRat| := by
  let shift : Int := digitCount b.coefficient - digitCount a.coefficient + f.precision + 1
  let n := a.coefficient * 10 ^ shift.toNat
  let m := b.coefficient * 10 ^ (-shift).toNat
  let e := a.exponent - b.exponent - shift
  have hm : 0 < m := Nat.mul_pos (coefficient_pos hb) (Nat.pow_pos (by decide))
  -- `n / m` has one digit more than the precision, so `10 ^ e` is below the last place
  have hquotient : |a.toRat / b.toRat| = (n : ℚ) / m * 10 ^ e := abs_toRat_div_eq a hb shift
  have hlong : longQuotient f a b =
      if n % m = 0 then dropZeros shift.toNat ⟨a.negative != b.negative, n / m, e⟩
      else ⟨a.negative != b.negative, 10 * (n / m) + 1, e - 1⟩ := rfl
  refine ⟨e, ?_, ?_⟩
  · rw [hlong, hquotient]
    split
    next hexact =>
      rw [toRat_dropZeros, abs_toRat, Nat.cast_div_charZero (Nat.dvd_of_mod_eq_zero hexact)]
      exact .refl _
    next hinexact =>
      rw [abs_toRat]
      exact sameDigits_lastDigit hm hinexact e
  · have hplaces : f.precision + e = a.adjusted - b.adjusted - 1 := by
      simp only [e, shift, adjusted]
      omega
    rw [hplaces]
    exact zpow_le_abs_toRat_div ha hb

/-- The last place that a format has for a rational number. -/
def Format.lastPlaceOf (f : Format) (x : ℚ) : ℤ :=
  max (Int.log 10 x - (f.precision - 1)) f.leastExponent

/-- Fitting the computed quotient rounds the exact one. -/
theorem abs_toRat_fit_longQuotient (hf : 0 < f.precision) (ha : a.isZero = false)
    (hb : b.isZero = false) :
    (longQuotient f a b).isZero = false ∧
      (longQuotient f a b).adjusted = Int.log 10 |a.toRat / b.toRat| ∧
      |(f.fit (longQuotient f a b)).toRat| =
        nearestMultiple (f.lastPlaceOf |a.toRat / b.toRat|) |a.toRat / b.toRat| := by
  obtain ⟨e, hsame, hplaces⟩ := sameDigits_longQuotient f ha hb
  have hx : 0 < |a.toRat / b.toRat| := lt_of_lt_of_le (by positivity) hplaces
  have hlog : f.precision + e ≤ Int.log 10 |a.toRat / b.toRat| := by
    rw [← Int.zpow_le_iff_le_log (by decide) hx]
    exact_mod_cast hplaces
  have hle : 10 ^ e ≤ |a.toRat / b.toRat| :=
    (zpow_le_zpow_right₀ (by norm_num) (by omega)).trans hplaces
  have hzero : (longQuotient f a b).isZero = false := by
    have hpos : (0 : ℚ) < |(longQuotient f a b).toRat| :=
      lt_of_lt_of_le (by positivity) (hsame.le_of_le (isMultiple_zpow le_rfl) hle)
    rw [Bool.eq_false_iff, ne_eq, ← toRat_eq_zero_iff, ← abs_eq_zero]
    exact hpos.ne'
  have hadjusted : (longQuotient f a b).adjusted = Int.log 10 |a.toRat / b.toRat| := by
    rw [hsame.log_eq hle, log_abs_toRat hzero]
  refine ⟨hzero, hadjusted, ?_⟩
  have hlast : f.lastPlace (longQuotient f a b) = f.lastPlaceOf |a.toRat / b.toRat| := by
    rw [Format.lastPlace, hadjusted, Format.lastPlaceOf]
  have hbelow : e < f.lastPlaceOf |a.toRat / b.toRat| := by
    unfold Format.lastPlaceOf
    omega
  rw [abs_toRat_fit hf, hlast, hsame.nearestMultiple_eq hbelow]

theorem negative_longQuotient (f : Format) (a b : Decimal) :
    (longQuotient f a b).negative = (a.negative != b.negative) := by
  have hdrop : ∀ (k : Nat) (d : Decimal), (dropZeros k d).negative = d.negative := by
    intro k
    induction k with
    | zero => exact fun _ => rfl
    | succ k ih =>
      intro d
      unfold dropZeros
      split
      · rw [ih]
      · rfl
  unfold longQuotient
  dsimp only
  split
  · rw [hdrop]
  · rfl

/-- A quotient that is not close to the greatest exponent is the exact one, rounded once. -/
theorem exists_div_eq (a : Decimal) (hb : b.isZero = false)
    (hmax : Int.log 10 |a.toRat / b.toRat| < format.maxExponent) :
    ∃ r, a.div b = .ok r ∧ r.negative = (a.negative != b.negative) ∧
      |r.toRat| = nearestMultiple (format.lastPlaceOf |a.toRat / b.toRat|) |a.toRat / b.toRat| := by
  unfold div
  cases ha : a.isZero with
  | true =>
    refine ⟨_, round_of_isZero rfl, rfl, ?_⟩
    rw [toRat_of_isZero ha, zero_div, abs_zero, nearestMultiple_eq_self ⟨0, by simp⟩]
    exact abs_eq_zero.2 (toRat_of_isZero rfl)
  | false =>
    obtain ⟨hzero, hadjusted, habs⟩ := abs_toRat_fit_longQuotient precision_pos ha hb
    refine ⟨format.fit (longQuotient format a b), round_eq_fit hzero (hadjusted ▸ hmax), ?_, habs⟩
    rw [negative_fit, negative_longQuotient]

/-! ## Integer parts -/

theorem dropDigits_eq (n k : Nat) : dropDigits n k = n / 10 ^ k := by
  unfold dropDigits
  split
  next hcount =>
    have hlt : n < 10 ^ k :=
      (lt_pow_digitCount n).trans_le (Nat.pow_le_pow_right (by decide) hcount)
    rw [Nat.div_eq_of_lt hlt]
  next => rfl

@[simp] theorem negative_truncate (d : Decimal) : d.truncate.negative = d.negative := by
  unfold truncate
  split <;> rfl

theorem exponent_truncate_nonneg (d : Decimal) : 0 ≤ d.truncate.exponent := by
  unfold truncate
  split
  next h => exact h
  next => exact le_rfl

/-- What is left of a number without its fraction. -/
theorem abs_toRat_truncate (d : Decimal) : |d.truncate.toRat| = ⌊|d.toRat|⌋ := by
  unfold truncate
  split
  next h =>
    obtain ⟨m, hm⟩ := d.isMultiple_abs_toRat.of_le h
    rw [zpow_zero, mul_one] at hm
    rw [hm, Int.floor_intCast]
  next h =>
    obtain ⟨k, hk⟩ : ∃ k : Nat, d.exponent = -k := ⟨(-d.exponent).toNat, by omega⟩
    have hpower : d.coefficient * (10 : ℚ) ^ d.exponent = d.coefficient / (10 ^ k : Nat) := by
      rw [hk, zpow_neg, zpow_natCast, div_eq_mul_inv]
      push_cast
      rfl
    rw [abs_toRat, abs_toRat, hpower, Rat.floor_natCast_div_natCast, hk, neg_neg,
      Int.toNat_natCast, dropDigits_eq, zpow_zero, mul_one]
    rfl

/-! ## Integer quotients -/

/-- Rounding at the last place of the format leads to the next integer when rounding to its digits
does. The two differ only below the least normal number, where neither does. -/
theorem nearestMultiple_eq_next_iff {x : ℚ} (hx : 0 ≤ x) :
    nearestMultiple (format.lastPlaceOf x) x = ((⌊x⌋ + 1 : ℤ) : ℚ) ↔
      roundedTo format.precision x = ((⌊x⌋ + 1 : ℤ) : ℚ) := by
  have hleast : format.leastExponent + format.precision < 0 := by decide
  have hprecision : 0 < format.precision := precision_pos
  unfold roundedTo Format.lastPlaceOf
  rw [abs_of_nonneg hx]
  obtain hnormal | hsmall := le_total format.leastExponent (Int.log 10 x - (format.precision - 1))
  · rw [max_eq_left hnormal]
  · -- a power of ten below one is a bound of either rounding
    obtain ⟨j, hj⟩ : ∃ j, j = max (Int.log 10 x + 1) format.leastExponent := ⟨_, rfl⟩
    have hlt : x < 10 ^ (Int.log 10 x + 1) := by
      exact_mod_cast Int.lt_zpow_succ_log_self (by decide : 1 < 10) x
    have hle : x ≤ 10 ^ j := hlt.le.trans (zpow_le_zpow_right₀ (by norm_num) (by omega))
    have hone : (10 : ℚ) ^ j < ((⌊x⌋ + 1 : ℤ) : ℚ) := by
      have hfloor : (1 : ℚ) ≤ ((⌊x⌋ + 1 : ℤ) : ℚ) := by
        exact_mod_cast Int.le_add_of_nonneg_left (Int.floor_nonneg.2 hx)
      exact (zpow_lt_one_of_neg₀ (by norm_num) (by omega)).trans_le hfloor
    have hbelow : ∀ {k : ℤ}, k ≤ j → nearestMultiple k x ≠ ((⌊x⌋ + 1 : ℤ) : ℚ) := fun hk =>
      ((nearestMultiple_le (isMultiple_zpow hk) hle).trans_lt hone).ne
    exact iff_of_false (hbelow (by omega)) (hbelow (by omega))

theorem lastPlaceOf_nonpos {x : ℚ} (hx : 0 ≤ x) (hlt : x < 10 ^ format.precision) :
    Int.log 10 x < format.precision ∧ format.lastPlaceOf x ≤ 0 := by
  have hleast : format.leastExponent ≤ 0 := by decide
  have hprecision : 0 < format.precision := precision_pos
  have hlog : Int.log 10 x < format.precision := by
    obtain rfl | hpos := hx.eq_or_lt
    · rw [Int.log_zero_right]
      exact_mod_cast hprecision
    · rw [← Int.lt_zpow_iff_log_lt (by decide) hpos, zpow_natCast]
      exact_mod_cast hlt
  refine ⟨hlog, ?_⟩
  unfold Format.lastPlaceOf
  omega

/-- The integer quotient is the integer part of the exact quotient, or the next integer if the
quotient is rounded up to it. -/
theorem exists_truncate_div (a : Decimal) (hb : b.isZero = false)
    (hlt : |a.toRat / b.toRat| < 10 ^ format.precision) :
    ∃ d, a.div b = .ok d ∧ d.truncate.negative = (a.negative != b.negative) ∧
      |d.truncate.toRat| =
        ((if roundedTo format.precision |a.toRat / b.toRat| =
            ((⌊|a.toRat / b.toRat|⌋ + 1 : ℤ) : ℚ) then ⌊|a.toRat / b.toRat|⌋ + 1
          else ⌊|a.toRat / b.toRat|⌋ : ℤ) : ℚ) := by
  have hgreatest : (format.precision : ℤ) ≤ format.maxExponent := by decide
  have hnonneg := abs_nonneg (a.toRat / b.toRat)
  obtain ⟨hlog, hplace⟩ := lastPlaceOf_nonpos hnonneg hlt
  obtain ⟨d, hd, hnegative, habs⟩ := exists_div_eq a hb (hlog.trans_le hgreatest)
  refine ⟨d, hd, by rw [negative_truncate, hnegative], ?_⟩
  rw [abs_toRat_truncate, habs, floor_nearestMultiple hplace]
  simp only [nearestMultiple_eq_next_iff hnonneg]

end Spreadsheet.Decimal
