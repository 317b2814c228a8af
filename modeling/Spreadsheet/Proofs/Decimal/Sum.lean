import Spreadsheet.Decimal.Arithmetic
import Spreadsheet.Proofs.Decimal.Fit

/-!
# Sums, differences and products

A sum is the exact one, rounded. A summand whose digits are all negligible is replaced before, so
that the coefficients stay short, and the sum keeps the sign of the other one. A sum of numbers
without digits below the least exponent is itself such a number: it has the sign of the exact sum,
and is zero only if that is. Sums and products of integers are exact as long as they have no more
digits than the precision.

## Main statements

* `Decimal.toRat_exactSum` — the exact sum.
* `Decimal.sign_exactSum_absorb` — its sign when a summand is replaced.
* `Decimal.sign_add`, `Decimal.sign_sub` — the sign of a sum and of a difference.
* `Decimal.exists_add_of_lt`, `Decimal.exists_mul_of_lt` — sums and products of integers.
-/

namespace Spreadsheet.Decimal

variable {f : Format} {a b d r big small : Decimal}

/-! ## Exact sums -/

theorem toRat_exactSum (a b : Decimal) : (exactSum a b).toRat = a.toRat + b.toRat := by
  let e := min a.exponent b.exponent
  let s := a.signedAt e + b.signedAt e
  have hsum : (s : ℚ) * 10 ^ e = a.toRat + b.toRat := by
    rw [← signedAt_mul (min_le_left a.exponent b.exponent),
      ← signedAt_mul (min_le_right a.exponent b.exponent), ← add_mul, ← Int.cast_add]
  have hsigned : (if (if s = 0 then a.negative && b.negative else decide (s < 0)) then -1 else 1) *
      (s.natAbs : ℚ) = s := by
    obtain hneg | hzero | hpos := lt_trichotomy s 0
    · rw [Nat.cast_natAbs, abs_of_neg hneg]
      simp [hneg, hneg.ne]
    · simp [hzero]
    · rw [Nat.cast_natAbs, abs_of_pos hpos]
      simp [hpos.ne', hpos.le]
  exact (congrArg (· * 10 ^ e) hsigned).trans hsum

/-! ## Negligible digits -/

/-- The place below which digits are negligible comes after the last digit. -/
theorem negligibleExponent_lt (f : Format) (d : Decimal) : negligibleExponent f d < d.exponent := by
  unfold negligibleExponent
  dsimp only
  split <;> omega

theorem zpow_negligibleExponent_lt (f : Format) (h : d.isZero = false) :
    10 ^ negligibleExponent f d < |d.toRat| :=
  lt_of_lt_of_le (zpow_lt_zpow_right₀ (by norm_num)
    ((negligibleExponent_lt f d).trans_le d.exponent_le_adjusted)) (zpow_adjusted_le h)

/-- A replaced summand is less than the other one, and so is what replaces it. -/
theorem absorb_eq_or (f : Format) (big small : Decimal) :
    absorb f big small = small ∨
      |small.toRat| < |big.toRat| ∧ |(absorb f big small).toRat| < |big.toRat| ∧
        small.exponent ≤ (absorb f big small).exponent := by
  unfold absorb
  dsimp only
  split
  next h =>
    right
    rw [Bool.and_eq_true, Bool.not_eq_true', decide_eq_true_eq] at h
    obtain ⟨hbig, hsmall⟩ := h
    have hplace := zpow_negligibleExponent_lt f hbig
    -- all digits of the summand, and the one that replaces them, are below this place
    refine ⟨?_, ?_, ?_⟩
    · refine small.lt_zpow_adjusted.trans_le (le_trans ?_ hplace.le)
      exact zpow_le_zpow_right₀ (by norm_num) hsmall
    · rw [abs_toRat]
      dsimp only
      split
      · simpa using (by positivity : (0 : ℚ) < 10 ^ negligibleExponent f big).trans hplace
      · simpa using hplace
    · exact small.exponent_le_adjusted.trans hsmall.le
  next => exact .inl rfl

/-- The sum has the same sign whether or not a summand is replaced. -/
theorem sign_exactSum_absorb (f : Format) (big small : Decimal) :
    SignType.sign (exactSum big (absorb f big small)).toRat =
      SignType.sign (big.toRat + small.toRat) := by
  rw [toRat_exactSum]
  obtain hsame | ⟨hsmall, habsorbed, -⟩ := absorb_eq_or f big small
  · rw [hsame]
  · rw [sign_add_of_abs_lt habsorbed, sign_add_of_abs_lt hsmall]

theorem le_exponent_absorb {e : ℤ} (h : e ≤ small.exponent) :
    e ≤ (absorb f big small).exponent := by
  obtain hsame | ⟨-, -, hexponent⟩ := absorb_eq_or f big small
  · rwa [hsame]
  · exact h.trans hexponent

theorem exactSum_comm_sign (a b : Decimal) :
    SignType.sign (exactSum a b).toRat = SignType.sign (exactSum b a).toRat := by
  rw [toRat_exactSum, toRat_exactSum, add_comm]

/-! ## Rounded sums -/

/-- A sum is a rounded number that has no digits below those of the summands, and the sign of the
exact sum. -/
theorem exists_add_eq (a b : Decimal) :
    ∃ d, a.add b = round d ∧ SignType.sign d.toRat = SignType.sign (a.toRat + b.toRat) ∧
      ∀ e, e ≤ a.exponent → e ≤ b.exponent → e ≤ d.exponent := by
  unfold add
  split
  · refine ⟨_, rfl, sign_exactSum_absorb .., fun e ha hb => ?_⟩
    exact le_min ha (le_exponent_absorb hb)
  · refine ⟨_, rfl, ?_, fun e ha hb => ?_⟩
    · rw [exactSum_comm_sign, sign_exactSum_absorb, add_comm]
    · exact le_min (le_exponent_absorb ha) hb

/-- A sum of numbers without digits below the least exponent has the sign of the exact sum. -/
theorem sign_add (ha : format.leastExponent ≤ a.exponent) (hb : format.leastExponent ≤ b.exponent)
    (h : a.add b = .ok r) : SignType.sign r.toRat = SignType.sign (a.toRat + b.toRat) := by
  obtain ⟨d, hround, hsign, hexponent⟩ := exists_add_eq a b
  rw [hround] at h
  rw [sign_round (hexponent _ ha hb) h, hsign]

theorem add_eq_error {s : Signal} (h : a.add b = .error s) : s = .overflow := by
  obtain ⟨d, hround, -⟩ := exists_add_eq a b
  exact round_eq_error (hround.symm.trans h)

theorem sign_sub (ha : format.leastExponent ≤ a.exponent) (hb : format.leastExponent ≤ b.exponent)
    (h : a.sub b = .ok r) : SignType.sign r.toRat = SignType.sign (a.toRat - b.toRat) := by
  rw [sign_add (b := b.neg) ha hb h, toRat_neg, sub_eq_add_neg]

/-! ## Integers -/

/-- A summand is not replaced if its leading digit is not far below that of the other one. -/
theorem absorb_eq_self (h : big.isZero = false → big.adjusted ≤ small.adjusted + f.precision) :
    absorb f big small = small := by
  have hnear : (!big.isZero && decide (small.adjusted < negligibleExponent f big)) = false := by
    cases hzero : big.isZero with
    | true => rfl
    | false =>
      have hadjusted := h hzero
      have hplace : negligibleExponent f big ≤ small.adjusted := by
        unfold negligibleExponent
        unfold adjusted at hadjusted ⊢
        dsimp only
        split <;> omega
      simpa using hplace
  unfold absorb
  dsimp only
  rw [hnear]
  rfl

theorem exists_add_of_lt (ha : 0 ≤ a.exponent) (hb : 0 ≤ b.exponent)
    (hlta : |a.toRat| < 10 ^ format.precision) (hltb : |b.toRat| < 10 ^ format.precision)
    (hlt : |a.toRat + b.toRat| < 10 ^ format.precision) :
    ∃ r, a.add b = .ok r ∧ r.toRat = a.toRat + b.toRat := by
  have hsmall : ∀ {d d' : Decimal}, |d.toRat| < 10 ^ format.precision → 0 ≤ d'.exponent →
      absorb format d d' = d' := fun hlt hexponent => absorb_eq_self fun hzero => by
    have hlow := (exponent_le_adjusted _).trans' hexponent
    have hhigh := adjusted_lt_of_lt hzero hlt
    omega
  have hadd : a.add b = round (exactSum a b) := by
    unfold add
    rw [hsmall hlta hb, hsmall hltb ha, ite_self]
  rw [← toRat_exactSum] at hlt ⊢
  obtain ⟨r, hr, hvalue, -⟩ := exists_round_of_lt (le_min ha hb) hlt
  exact ⟨r, hadd.trans hr, hvalue⟩

theorem exists_mul_of_lt (ha : 0 ≤ a.exponent) (hb : 0 ≤ b.exponent)
    (hlt : |a.toRat * b.toRat| < 10 ^ format.precision) :
    ∃ r, a.mul b = .ok r ∧ r.toRat = a.toRat * b.toRat ∧ 0 ≤ r.exponent := by
  have hproduct : toRat ⟨a.negative != b.negative, a.coefficient * b.coefficient,
      a.exponent + b.exponent⟩ = a.toRat * b.toRat := by
    unfold toRat
    rw [zpow_add₀ (by norm_num)]
    push_cast
    cases a.negative <;> cases b.negative <;> simp <;> ring
  rw [← hproduct] at hlt ⊢
  exact exists_round_of_lt (Int.add_nonneg ha hb) hlt

end Spreadsheet.Decimal
