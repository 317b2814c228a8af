import Spreadsheet.Proofs.Decimal.Magnitude

/-!
# Rounded results

The result of an operation is the exact one, rounded half to even at the last place that the format
has for it. A number that fits the format is left as it is, and an overflow is the only signal. A
number without digits below the least exponent keeps its sign, since it is not rounded to zero.

## Main definitions

* `Decimal.Format.lastPlace` — the exponent of the last place that a format has for a number.
* `Decimal.Format.Fits` — the numbers of a format.

## Main statements

* `Decimal.abs_toRat_fit` — what a number is rounded to.
* `Decimal.round_eq_self` — numbers that fit the format.
* `Decimal.round_eq_fit`, `Decimal.round_eq_error` — when there is a result.
* `Decimal.sign_round` — its sign.
-/

namespace Spreadsheet.Decimal

variable {f : Format} {d r : Decimal} {s : Signal}

/-! ## Fitting a format -/

/-- The exponent of the last place that a format has for a number. For small numbers this is the
least exponent. -/
def Format.lastPlace (f : Format) (d : Decimal) : Int :=
  max (d.adjusted - (f.precision - 1)) f.leastExponent

@[simp] theorem roundHalfEven_zero (n : Nat) : roundHalfEven n 0 = n := by
  simp [roundHalfEven, Nat.mod_one]

@[simp] theorem negative_fit (f : Format) (d : Decimal) : (f.fit d).negative = d.negative := by
  unfold Format.fit
  dsimp only
  split <;> rfl

/-- A coefficient that is rounded to more digits than the precision has become a power of ten. -/
theorem eq_pow_of_precision_lt (hf : 0 < f.precision) {n : Nat}
    (hn : roundHalfEven d.coefficient (f.targetExponent d - d.exponent).toNat = n)
    (hcarry : f.precision < digitCount n) : n = 10 ^ f.precision := by
  have hdigits : digitCount d.coefficient ≤
      f.precision + (f.targetExponent d - d.exponent).toNat := by
    unfold Format.targetExponent adjusted
    omega
  generalize (f.targetExponent d - d.exponent).toNat = k at *
  have hlt : d.coefficient < 10 ^ f.precision * 10 ^ k := by
    rw [← Nat.pow_add]
    exact (lt_pow_digitCount _).trans_le (Nat.pow_le_pow_right (by decide) hdigits)
  have hnonneg : 0 * 10 ^ k ≤ d.coefficient := by
    rw [Nat.zero_mul]
    exact Nat.zero_le _
  refine Nat.le_antisymm ?_ (Nat.le_of_not_lt fun hless => ?_)
  · exact hn ▸ ((nearest_roundHalfEven d.coefficient k).bounds hnonneg hlt).2
  · exact absurd ((digitCount_le_iff hf).2 hless) (Nat.not_le_of_lt hcarry)

/-- Fitting rounds the coefficient, whether or not the exponent takes up a digit of it. -/
theorem abs_toRat_fit_eq_mul (hf : 0 < f.precision) (d : Decimal) :
    |(f.fit d).toRat| =
      roundHalfEven d.coefficient (f.targetExponent d - d.exponent).toNat *
        10 ^ f.targetExponent d := by
  generalize hn : roundHalfEven d.coefficient (f.targetExponent d - d.exponent).toNat = n
  unfold Format.fit
  simp only [hn]
  split
  next hcarry =>
    obtain ⟨k, hk⟩ := Nat.exists_eq_succ_of_ne_zero hf.ne'
    have hpower : n = 10 ^ k * 10 := by
      rw [eq_pow_of_precision_lt hf hn hcarry, hk, Nat.pow_succ]
    rw [abs_toRat, hpower, Nat.mul_div_cancel _ (by decide), zpow_add_one₀ (by norm_num)]
    push_cast
    ring
  next => rw [abs_toRat]

/-- Fitting rounds a number half to even at its last place. -/
theorem abs_toRat_fit (hf : 0 < f.precision) (d : Decimal) :
    |(f.fit d).toRat| = nearestMultiple (f.lastPlace d) |d.toRat| := by
  have htarget : f.targetExponent d = max d.exponent (f.lastPlace d) := rfl
  rw [abs_toRat_fit_eq_mul hf]
  obtain hle | hle := le_total (f.lastPlace d) d.exponent
  · rw [htarget, max_eq_left hle, sub_self, Int.toNat_zero, roundHalfEven_zero, ← abs_toRat,
      nearestMultiple_eq_self (d.isMultiple_abs_toRat.of_le hle)]
  · obtain ⟨k, hk⟩ := Int.le.dest hle
    have hunits : |d.toRat| / 10 ^ f.lastPlace d = d.coefficient / 10 ^ k := by
      rw [abs_toRat, ← hk, zpow_add₀ (by norm_num), zpow_natCast,
        mul_comm ((10 : ℚ) ^ d.exponent), mul_div_mul_right _ _ (by positivity)]
    rw [htarget, max_eq_right hle, nearestMultiple, hunits, nearestInteger_natCast_div, ← hk,
      add_sub_cancel_left, Int.toNat_natCast]
    push_cast
    rfl

theorem fit_eq_self (hcount : digitCount d.coefficient ≤ f.precision)
    (hleast : f.leastExponent ≤ d.exponent) : f.fit d = d := by
  have htarget : f.targetExponent d = d.exponent := by
    unfold Format.targetExponent adjusted
    omega
  unfold Format.fit
  simp [htarget, Nat.not_lt.2 hcount]

theorem lastPlace_le (hf : 0 < f.precision) (d : Decimal) :
    f.lastPlace d ≤ max d.adjusted f.leastExponent := by
  unfold Format.lastPlace
  omega

/-- A number is not rounded beyond a power of ten, unless it is below the least exponent. -/
theorem abs_toRat_fit_le (hf : 0 < f.precision) (d : Decimal) :
    |(f.fit d).toRat| ≤ 10 ^ max (d.adjusted + 1) f.leastExponent := by
  have hplace := lastPlace_le hf d
  rw [abs_toRat_fit hf]
  refine nearestMultiple_le (isMultiple_zpow (by omega)) (d.lt_zpow_adjusted.le.trans ?_)
  exact zpow_le_zpow_right₀ (by norm_num) (le_max_left ..)

/-- A number without digits below the least exponent is not rounded below its leading digit. -/
theorem zpow_adjusted_le_fit (hf : 0 < f.precision) (h : d.isZero = false)
    (hleast : f.leastExponent ≤ d.exponent) : 10 ^ d.adjusted ≤ |(f.fit d).toRat| := by
  have hplace := lastPlace_le hf d
  have hadjusted := d.exponent_le_adjusted
  rw [abs_toRat_fit hf]
  exact le_nearestMultiple (isMultiple_zpow (by omega)) (zpow_adjusted_le h)

theorem adjusted_fit_le (hf : 0 < f.precision) (d : Decimal) :
    (f.fit d).adjusted ≤ max d.adjusted f.leastExponent + 1 := by
  cases hzero : (f.fit d).isZero with
  | true =>
    have hexponent : (f.fit d).exponent ≤ f.targetExponent d + 1 := by
      unfold Format.fit
      dsimp only
      split <;> dsimp only <;> omega
    have hadjusted := d.exponent_le_adjusted
    have hplace := lastPlace_le hf d
    have htarget : f.targetExponent d = max d.exponent (f.lastPlace d) := rfl
    rw [adjusted_of_isZero hzero]
    omega
  | false =>
    have hle := (zpow_adjusted_le hzero).trans (abs_toRat_fit_le hf d)
    have hadjusted := (zpow_le_zpow_iff_right₀ (by norm_num : (1 : ℚ) < 10)).1 hle
    omega

/-! ## Results -/

/-- Whether a number has no more digits than the precision, and exponents in the range of the
format. -/
structure Format.Fits (f : Format) (d : Decimal) : Prop where
  digitCount_le : digitCount d.coefficient ≤ f.precision
  least_le : f.leastExponent ≤ d.exponent
  le_greatest : d.adjusted ≤ f.maxExponent

theorem precision_pos : 0 < format.precision := by decide

theorem round_of_not_isZero (h : d.isZero = false) :
    round d = if format.maxExponent < (format.fit d).adjusted then .error .overflow
      else .ok (format.fit d) := by
  unfold round Format.round
  rw [h]
  rfl

theorem round_of_isZero (h : d.isZero) :
    round d =
      .ok { d with exponent := max format.leastExponent (min d.exponent format.maxExponent) } :=
  if_pos h

/-- Overflow is the only signal. -/
theorem round_eq_error (h : round d = .error s) : s = .overflow := by
  cases hzero : d.isZero with
  | true =>
    rw [round_of_isZero hzero] at h
    cases h
  | false =>
    rw [round_of_not_isZero hzero] at h
    split at h
    · exact (Except.error.inj h).symm
    · cases h

theorem eq_fit_of_round (h : d.isZero = false) (hr : round d = .ok r) : r = format.fit d := by
  rw [round_of_not_isZero h] at hr
  split at hr
  · cases hr
  · exact (Except.ok.inj hr).symm

/-- Numbers that are not close to the greatest exponent do not overflow. -/
theorem round_eq_fit (h : d.isZero = false) (hmax : d.adjusted < format.maxExponent) :
    round d = .ok (format.fit d) := by
  have hleast : format.leastExponent + 1 ≤ format.maxExponent := by decide
  have hadjusted := adjusted_fit_le precision_pos d
  rw [round_of_not_isZero h]
  exact if_neg (by omega)

/-- Numbers that fit the format are their own results. -/
theorem round_eq_self (h : format.Fits d) : round d = .ok d := by
  obtain ⟨hcount, hleast, hmax⟩ := h
  cases hzero : d.isZero with
  | true =>
    rw [adjusted_of_isZero hzero] at hmax
    rw [round_of_isZero hzero, min_eq_left hmax, max_eq_right hleast]
  | false =>
    rw [round_of_not_isZero hzero, fit_eq_self hcount hleast]
    exact if_neg (by omega)

theorem negative_round (h : round d = .ok r) : r.negative = d.negative := by
  cases hzero : d.isZero with
  | true =>
    rw [round_of_isZero hzero] at h
    obtain rfl := Except.ok.inj h
    rfl
  | false => rw [eq_fit_of_round hzero h, negative_fit]

/-- A number without digits below the least exponent keeps its sign. -/
theorem sign_round (hleast : format.leastExponent ≤ d.exponent) (h : round d = .ok r) :
    SignType.sign r.toRat = SignType.sign d.toRat := by
  have hzero : r.isZero = d.isZero := by
    cases hd : d.isZero with
    | true =>
      rw [round_of_isZero hd] at h
      obtain rfl := Except.ok.inj h
      exact hd
    | false =>
      have hpos : 0 < |r.toRat| := by
        rw [eq_fit_of_round hd h]
        exact lt_of_lt_of_le (by positivity) (zpow_adjusted_le_fit precision_pos hd hleast)
      rw [Bool.eq_false_iff, ne_eq, ← toRat_eq_zero_iff, ← abs_eq_zero]
      exact hpos.ne'
  rw [sign_toRat, sign_toRat, hzero, negative_round h]

/-- Integers of no more digits than the precision are exact results. -/
theorem exists_round_of_lt (hexponent : 0 ≤ d.exponent) (hlt : |d.toRat| < 10 ^ format.precision) :
    ∃ r, round d = .ok r ∧ r.toRat = d.toRat ∧ 0 ≤ r.exponent := by
  have hleast : format.leastExponent ≤ 0 := by decide
  have hgreatest : (format.precision : Int) ≤ format.maxExponent := by decide
  cases hzero : d.isZero with
  | true =>
    refine ⟨_, round_of_isZero hzero, ?_, ?_⟩
    · rw [toRat_of_isZero hzero]
      exact toRat_of_isZero hzero
    · dsimp only
      omega
  | false =>
    have hadjusted := adjusted_lt_of_lt hzero hlt
    have hcount : digitCount d.coefficient ≤ format.precision := by
      unfold adjusted at hadjusted
      omega
    exact ⟨d, round_eq_self ⟨hcount, by omega, by omega⟩, rfl, hexponent⟩

end Spreadsheet.Decimal
