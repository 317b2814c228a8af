import Spreadsheet.Formula.Operator
import Spreadsheet.Proofs.Decimal.Quotient
import Spreadsheet.Proofs.Decimal.Remainder

/-!
# Integer quotients and remainders

The operator `div` rounds the quotient before it takes the fraction off, so its result may be the
next integer after the integer part of the exact quotient. For integers of up to 27 digits this does
not happen. The operator `mod` does not round: its result is the exact remainder whenever there is
one, and together with the integer quotient it gives the dividend back.

## Main statements

* `BinaryOperator.mod_leaves_rest` — remainders.
* `BinaryOperator.quotient_truncates` — integer quotients.
-/

namespace Spreadsheet.BinaryOperator

open Decimal

variable {a b q r : Decimal}

/-! ## Results on decimals -/

theorem apply_quotient_of_div (hb : b.isZero = false) (h : a.div b = .ok q) :
    quotient.apply (.finite a) (.finite b) = .ok (.finite q.truncate) := by
  have happly : quotient.apply (.finite a) (.finite b) =
      if b.isZero then .error (.divideByZero quotient.symbol)
      else ofArithmetic (((a.div b).map .finite).map Number.truncate) := rfl
  rw [happly, hb, h]
  rfl

theorem apply_mod (hb : b.isZero = false) :
    mod.apply (.finite a) (.finite b) = ofArithmetic ((a.rem b).map .finite) := by
  have happly : mod.apply (.finite a) (.finite b) =
      if b.isZero then .error (.divideByZero mod.symbol)
      else ofArithmetic ((a.rem b).map .finite) := rfl
  rw [happly, hb]
  rfl

theorem apply_mod_of_rem (hb : b.isZero = false) (h : a.rem b = .ok r) :
    mod.apply (.finite a) (.finite b) = .ok (.finite r) := by
  rw [apply_mod hb, h]
  rfl

theorem apply_mul_of_mul (h : a.mul b = .ok r) :
    mul.apply (.finite a) (.finite b) = .ok (.finite r) := by
  have happly : mul.apply (.finite a) (.finite b) = ofArithmetic ((a.mul b).map .finite) := rfl
  rw [happly, h]
  rfl

theorem apply_add_of_add (h : a.add b = .ok r) :
    add.apply (.finite a) (.finite b) = .ok (.finite r) := by
  have happly : add.apply (.finite a) (.finite b) = ofArithmetic ((a.add b).map .finite) := rfl
  rw [happly, h]
  rfl

/-! ## Remainders -/

/-- There is a remainder of numbers of the format unless their integer quotient has more than 28
digits, and it is exact. -/
theorem mod_leaves_rest (a b : Decimal) (hb : b.isZero = false) (ha : format.Fits a)
    (hb' : format.Fits b) :
    (mod.apply (.finite a) (.finite b) = .error (.arithmetic .invalidOperation) ↔
      10 ^ 28 ≤ ⌊|a.toRat / b.toRat|⌋) ∧
    (⌊|a.toRat / b.toRat|⌋ < 10 ^ 28 →
      ∃ r, mod.apply (.finite a) (.finite b) = .ok (.finite r) ∧
        a.toRat = towardZero (a.toRat / b.toRat) * b.toRat + r.toRat ∧
        |r.toRat| < |b.toRat| ∧
        (r.toRat = 0 ∨ SignType.sign r.toRat = SignType.sign a.toRat)) := by
  have hanswer : ⌊|a.toRat / b.toRat|⌋ < 10 ^ 28 →
      mod.apply (.finite a) (.finite b) = .ok (.finite (exactRem a b)) := fun hlt =>
    apply_mod_of_rem hb <| rem_eq_exactRem hb
      (digitCount_exactRem_le hb (fun _ => ha.digitCount_le) fun _ => hb'.digitCount_le)
      ha.least_le hb'.least_le ha.le_greatest hlt
  refine ⟨⟨fun hfail => ?_, fun hlong => ?_⟩, fun hlt => ?_⟩
  · by_contra hshort
    rw [hanswer (not_le.1 hshort)] at hfail
    cases hfail
  · have hrem : a.rem b = .error .invalidOperation := (rem_eq a hb).trans (if_pos hlong)
    rw [apply_mod hb, hrem]
    rfl
  · refine ⟨exactRem a b, hanswer hlt, toRat_eq_add_exactRem a b, abs_exactRem_lt a hb, ?_⟩
    exact or_iff_not_imp_left.2 sign_exactRem

/-- The remainder of a number with a greater exponent than the divisor. -/
theorem mod_leaves_rest_apart :
    ∃ r, mod.apply (.finite ⟨true, 17, 3⟩) (.finite ⟨false, 7, -2⟩) = .ok (.finite r) ∧
      (-17000 : ℚ) = -242857 * 0.07 + r.toRat ∧ |r.toRat| < 0.07 ∧
      (r.toRat = 0 ∨ SignType.sign r.toRat = -1) := by
  have hdividend : toRat ⟨true, 17, 3⟩ = -17000 := by decide +kernel
  have hdivisor : toRat ⟨false, 7, -2⟩ = 0.07 := by norm_num [toRat]
  have hquotient : towardZero (toRat ⟨true, 17, 3⟩ / toRat ⟨false, 7, -2⟩) = -242857 := by
    decide +kernel
  have hfits : format.Fits ⟨true, 17, 3⟩ := ⟨by decide, by decide, by decide⟩
  have hfits' : format.Fits ⟨false, 7, -2⟩ := ⟨by decide, by decide, by decide⟩
  obtain ⟨r, hr, hvalue, hless, hsign⟩ :=
    (mod_leaves_rest ⟨true, 17, 3⟩ ⟨false, 7, -2⟩ (by decide) hfits hfits').2 (by decide +kernel)
  have hpositive : |(0.07 : ℚ)| = 0.07 := abs_of_pos (by norm_num)
  have hnegative : SignType.sign (-17000 : ℚ) = -1 := sign_neg (by norm_num)
  rw [hquotient, hdividend, hdivisor] at hvalue
  rw [hdivisor, hpositive] at hless
  rw [hdividend, hnegative] at hsign
  exact ⟨r, hr, by exact_mod_cast hvalue, hless, hsign⟩

/-! ## Integer quotients -/

/-- The integer quotient of numbers, unless it has more than 28 digits. -/
theorem exists_quotient (a : Decimal) (hb : b.isZero = false)
    (hlt : |a.toRat / b.toRat| < 10 ^ 28) :
    ∃ q : Decimal, quotient.apply (.finite a) (.finite b) = .ok (.finite q) ∧
      0 ≤ q.exponent ∧ q.negative = (a.negative != b.negative) ∧
      |q.toRat| = ((if roundedTo 28 |a.toRat / b.toRat| =
            ((⌊|a.toRat / b.toRat|⌋ + 1 : ℤ) : ℚ) then ⌊|a.toRat / b.toRat|⌋ + 1
          else ⌊|a.toRat / b.toRat|⌋ : ℤ) : ℚ) := by
  obtain ⟨d, hd, hnegative, habs⟩ := exists_truncate_div a hb hlt
  exact ⟨d.truncate, apply_quotient_of_div hb hd, d.exponent_truncate_nonneg, hnegative, habs⟩

/-- A number that is negative when the quotient is has its sign. -/
theorem sign_eq_sign_div (hq : q.toRat ≠ 0) (hne : a.toRat / b.toRat ≠ 0)
    (hnegative : q.negative = (a.negative != b.negative)) :
    SignType.sign q.toRat = SignType.sign (a.toRat / b.toRat) := by
  rw [q.toRat_eq, toRat_div_toRat, hnegative]
  split
  · rw [sign_neg (neg_neg_of_pos (abs_pos.2 hq)), sign_neg (neg_neg_of_pos (abs_pos.2 hne))]
  · rw [sign_pos (abs_pos.2 hq), sign_pos (abs_pos.2 hne)]

/-- The exact quotient of integers is no greater than the dividend. -/
theorem abs_div_le_of_integer (a : Decimal) (hb : b.isZero = false) (hexponent : b.exponent = 0) :
    |a.toRat / b.toRat| ≤ |a.toRat| := by
  have hone : (1 : ℚ) ≤ |b.toRat| := by
    rw [abs_toRat, hexponent, zpow_zero, mul_one]
    exact_mod_cast coefficient_pos hb
  rw [abs_div]
  exact div_le_self (abs_nonneg _) hone

/-- The integer quotient of integers is the exact one without its fraction, if the dividend has few
digits. -/
theorem exists_quotient_of_integers (hb : b.isZero = false) (ha : a.exponent = 0)
    (hb' : b.exponent = 0) (hlt : a.coefficient < 2 * 10 ^ 27) :
    ∃ q : Decimal, quotient.apply (.finite a) (.finite b) = .ok (.finite q) ∧
      0 ≤ q.exponent ∧ q.toRat = towardZero (a.toRat / b.toRat) := by
  have habs : |a.toRat| < 2 * 10 ^ 27 := by
    rw [abs_toRat, ha, zpow_zero, mul_one]
    exact_mod_cast hlt
  have hup : roundedTo 28 |a.toRat / b.toRat| ≠ ((⌊|a.toRat / b.toRat|⌋ + 1 : ℤ) : ℚ) := by
    rw [abs_div, abs_toRat, abs_toRat, ha, hb', zpow_zero, mul_one, mul_one]
    exact roundedTo_ne_of_lt (coefficient_pos hb) hlt
  have hfits : |a.toRat / b.toRat| < 10 ^ 28 := by
    linarith [abs_div_le_of_integer a hb hb']
  obtain ⟨q, hq, hexponent, hnegative, hvalue⟩ := exists_quotient a hb hfits
  rw [if_neg hup] at hvalue
  refine ⟨q, hq, hexponent, ?_⟩
  rw [q.toRat_eq, towardZero_toRat_div, hnegative, hvalue]
  split <;> push_cast <;> rfl

/-- The remainder of integers is exact, if the dividend has no more than 28 digits. -/
theorem exists_mod_of_integers (hb : b.isZero = false) (ha : a.exponent = 0)
    (hb' : b.exponent = 0) (hlt : |a.toRat| < 10 ^ 28) :
    ∃ m : Decimal, mod.apply (.finite a) (.finite b) = .ok (.finite m) ∧ 0 ≤ m.exponent ∧
      m.toRat = (exactRem a b).toRat := by
  have hexponent : 0 ≤ (exactRem a b).exponent := le_min ha.ge hb'.ge
  have hfloor : ⌊|a.toRat / b.toRat|⌋ < 10 ^ format.precision :=
    Int.floor_lt.2 (by exact_mod_cast (abs_div_le_of_integer a hb hb').trans_lt hlt)
  obtain ⟨m, hround, hvalue, hnonneg⟩ :=
    exists_round_of_lt hexponent ((abs_exactRem_le a b).trans_lt hlt)
  have hrem : a.rem b = .ok m := by rw [rem_eq a hb, if_neg (not_le.2 hfloor), hround]
  exact ⟨m, apply_mod_of_rem hb hrem, hnonneg, hvalue⟩

/-- The integer quotient times the divisor, and the remainder, give the dividend back. -/
theorem exists_sum_of_integers (hb : b.isZero = false) (hb' : b.exponent = 0)
    (habs : |a.toRat| < 10 ^ 28) (hq : 0 ≤ q.exponent)
    (hquotient : q.toRat = towardZero (a.toRat / b.toRat)) (hr : 0 ≤ r.exponent)
    (hrest : r.toRat = (exactRem a b).toRat) :
    ∃ p s : Decimal, mul.apply (.finite q) (.finite b) = .ok (.finite p) ∧
      add.apply (.finite p) (.finite r) = .ok (.finite s) ∧ s.toRat = a.toRat := by
  have hne : b.toRat ≠ 0 := abs_pos.1 (abs_toRat_pos hb)
  have hproduct : |q.toRat * b.toRat| < 10 ^ 28 :=
    hquotient ▸ (abs_towardZero_div_mul_le a.toRat hne).trans_lt habs
  have hless : |r.toRat| < 10 ^ 28 := hrest ▸ (abs_exactRem_le a b).trans_lt habs
  obtain ⟨p, hp, hpvalue, hpexponent⟩ := exists_mul_of_lt hq hb'.ge hproduct
  have hback : p.toRat + r.toRat = a.toRat := by
    rw [hpvalue, hquotient, hrest, ← toRat_eq_add_exactRem]
  obtain ⟨s, hs, hsvalue⟩ :=
    exists_add_of_lt hpexponent hr (hpvalue ▸ hproduct) hless (hback ▸ habs)
  exact ⟨p, s, apply_mul_of_mul hp, apply_add_of_add hs, hsvalue.trans hback⟩

/-- Integer quotients. Up to 28 digits the integer quotient is the integer part of the exact
quotient, or the next integer if the exact quotient is that when rounded to 28 digits; it has the
sign of the exact quotient. For a dividend that is an integer below `2 * 10 ^ 27` and a divisor that
is one of any length, it is the exact quotient without its fraction, and together with the remainder
gives the dividend back. -/
theorem quotient_truncates (a b : Decimal) (hb : b.isZero = false) :
    (|a.toRat / b.toRat| < 10 ^ 28 →
      ∃ (q : Decimal) (n : ℤ), quotient.apply (.finite a) (.finite b) = .ok (.finite q) ∧
        |q.toRat| = n ∧
        (n = ⌊|a.toRat / b.toRat|⌋ ∨ n = ⌊|a.toRat / b.toRat|⌋ + 1) ∧
        (n = ⌊|a.toRat / b.toRat|⌋ + 1 ↔
          roundedTo 28 |a.toRat / b.toRat| = ((⌊|a.toRat / b.toRat|⌋ + 1 : ℤ) : ℚ)) ∧
        (q.toRat ≠ 0 → SignType.sign q.toRat = SignType.sign (a.toRat / b.toRat))) ∧
    (a.exponent = 0 → b.exponent = 0 → a.coefficient < 2 * 10 ^ 27 →
      ∃ q p m s : Decimal, quotient.apply (.finite a) (.finite b) = .ok (.finite q) ∧
        q.toRat = towardZero (a.toRat / b.toRat) ∧
        mul.apply (.finite q) (.finite b) = .ok (.finite p) ∧
        mod.apply (.finite a) (.finite b) = .ok (.finite m) ∧
        add.apply (.finite p) (.finite m) = .ok (.finite s) ∧ s.toRat = a.toRat) := by
  refine ⟨fun hlt => ?_, fun ha hb' hlt => ?_⟩
  · obtain ⟨q, hq, -, hnegative, hvalue⟩ := exists_quotient a hb hlt
    refine ⟨q, _, hq, hvalue, ?_, ?_, fun hne => sign_eq_sign_div hne (fun hzero => ?_) hnegative⟩
    · exact (ite_eq_or_eq ..).symm
    · refine ⟨fun hnext => ?_, fun hup => if_pos hup⟩
      by_contra hup
      rw [if_neg hup] at hnext
      omega
    · -- zero is not rounded to one
      refine hne ?_
      simpa [hzero] using hvalue
  · have habs : |a.toRat| < 10 ^ 28 := by
      rw [abs_toRat, ha, zpow_zero, mul_one]
      exact_mod_cast hlt.trans (by decide)
    obtain ⟨q, hq, hqexponent, hqvalue⟩ := exists_quotient_of_integers hb ha hb' hlt
    obtain ⟨m, hm, hmexponent, hmvalue⟩ := exists_mod_of_integers hb ha hb' habs
    obtain ⟨p, s, hp, hs, hsvalue⟩ :=
      exists_sum_of_integers hb hb' habs hqexponent hqvalue hmexponent hmvalue
    exact ⟨q, p, m, s, hq, hqvalue, hp, hm, hs, hsvalue⟩

/-- A quotient that is rounded up to one, and a dividend that is given back. -/
theorem quotient_truncates_nines :
    (quotient.apply (.finite ⟨false, 10 ^ 29 - 1, 0⟩) (.finite ⟨true, 10 ^ 29, 0⟩) =
        .ok (.finite ⟨true, 1, 0⟩) ∧ roundedTo 28 ((10 ^ 29 - 1) / 10 ^ 29) = 1) ∧
      ∃ q p m s : Decimal,
        quotient.apply (.finite ⟨true, 17, 0⟩) (.finite ⟨false, 5, 0⟩) = .ok (.finite q) ∧
        q.toRat = -3 ∧ mul.apply (.finite q) (.finite ⟨false, 5, 0⟩) = .ok (.finite p) ∧
        mod.apply (.finite ⟨true, 17, 0⟩) (.finite ⟨false, 5, 0⟩) = .ok (.finite m) ∧
        add.apply (.finite p) (.finite m) = .ok (.finite s) ∧ s.toRat = -17 := by
  have hone : quotient.apply (.finite ⟨false, 10 ^ 29 - 1, 0⟩) (.finite ⟨true, 10 ^ 29, 0⟩) =
      .ok (.finite ⟨true, 1, 0⟩) := by decide +kernel
  have hratio : |toRat ⟨false, 10 ^ 29 - 1, 0⟩ / toRat ⟨true, 10 ^ 29, 0⟩| =
      (10 ^ 29 - 1) / 10 ^ 29 := by
    rw [abs_div, abs_toRat, abs_toRat]
    norm_num
  refine ⟨⟨hone, ?_⟩, ?_⟩
  · obtain ⟨q, n, hq, hn, -, hnext, -⟩ :=
      (quotient_truncates ⟨false, 10 ^ 29 - 1, 0⟩ ⟨true, 10 ^ 29, 0⟩ (by decide)).1
        (by rw [hratio]; norm_num)
    obtain rfl : q = ⟨true, 1, 0⟩ := by simpa using hq.symm.trans hone
    obtain rfl : n = 1 := by
      rw [abs_toRat] at hn
      exact_mod_cast hn.symm.trans (by norm_num : ((1 : ℕ) : ℚ) * 10 ^ (0 : ℤ) = 1)
    have hfloor : ⌊((10 ^ 29 - 1) / 10 ^ 29 : ℚ)⌋ = 0 := by norm_num
    rw [hratio, hfloor] at hnext
    simpa using hnext.1 rfl
  · obtain ⟨q, p, m, s, hq, hqvalue, hp, hm, hs, hsvalue⟩ :=
      (quotient_truncates ⟨true, 17, 0⟩ ⟨false, 5, 0⟩ (by decide)).2 rfl rfl (by decide)
    have hthree : towardZero (toRat ⟨true, 17, 0⟩ / toRat ⟨false, 5, 0⟩) = -3 := by decide +kernel
    have hdividend : toRat ⟨true, 17, 0⟩ = -17 := by decide +kernel
    refine ⟨q, p, m, s, hq, ?_, hp, hm, hs, hsvalue.trans hdividend⟩
    rw [hqvalue, hthree]
    norm_num

end Spreadsheet.BinaryOperator
