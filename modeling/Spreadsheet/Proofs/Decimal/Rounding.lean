import Mathlib.Algebra.Order.Field.Power
import Mathlib.Tactic.Linarith
import Mathlib.Tactic.Ring
import Spreadsheet.Proofs.Decimal.Rational

/-!
# Rounding to the nearest number

A natural number without its last digits is the nearest multiple of a power of ten, and the even one
of two that are equally near. A decimal is brought to a fixed number of digits in this way: zeros are
appended if it has fewer, and digits are dropped if it has more. It is changed by half a unit of the
last digit at most.

## Main definitions

* `Decimal.Nearest` — the multiples of a unit that are nearest to a number.
* `Decimal.rounded` — a number with a fixed number of digits.

## Main statements

* `Decimal.digitCount_eq_iff` — numbers by the count of their digits.
* `Decimal.nearest_roundHalfEven` — what rounding leaves.
* `Decimal.abs_rounded_sub_le`, `Decimal.rounded_even` — how near a rounded number is.
* `Decimal.rounded_bounds` — its digits.
-/

namespace Spreadsheet.Decimal

open Numeral

variable {n m k unit places : Nat} {d w : Decimal}

/-! ## Digits -/

theorem digitCount_pos (n : Nat) : 0 < digitCount n :=
  Nat.length_toDigits_pos

theorem digitCount_le_iff (hk : 0 < k) : digitCount n ≤ k ↔ n < 10 ^ k :=
  Nat.length_toDigits_le_iff (by decide) hk

/-- The numbers with `k + 1` digits. Zero has one digit too. -/
theorem digitCount_eq_iff (hn : 0 < n) : digitCount n = k + 1 ↔ 10 ^ k ≤ n ∧ n < 10 ^ (k + 1) := by
  have habove : digitCount n ≤ k + 1 ↔ n < 10 ^ (k + 1) := digitCount_le_iff (Nat.succ_pos k)
  have hbelow : k + 1 ≤ digitCount n ↔ 10 ^ k ≤ n := by
    obtain rfl | hk := Nat.eq_zero_or_pos k
    · have hcount := digitCount_pos n
      rw [Nat.pow_zero]
      omega
    · rw [Nat.succ_le_iff, ← Nat.not_le, digitCount_le_iff hk, Nat.not_lt]
  omega

/-! ## Nearest multiples -/

/-- Whether `m` times the unit is nearest to `n`, and even if another multiple is as near. -/
structure Nearest (n unit m : Nat) : Prop where
  le_above : 2 * (m * unit) ≤ 2 * n + unit
  le_below : 2 * n ≤ 2 * (m * unit) + unit
  even_of_tie : 2 * (m * unit) = 2 * n + unit ∨ 2 * n = 2 * (m * unit) + unit → m % 2 = 0

/-- Rounding leaves the nearest number of units. -/
theorem nearest_roundHalfEven (n k : Nat) : Nearest n (10 ^ k) (roundHalfEven n k) := by
  have hpos : 0 < 10 ^ k := Nat.pow_pos (by decide)
  unfold roundHalfEven
  split
  next hfew =>
    have hn : n < 10 ^ (k - 1) :=
      (digitCount_le_iff (by have := digitCount_pos n; omega)).1 (by omega)
    have hunit : 10 ^ k = 10 * 10 ^ (k - 1) := by
      rw [← Nat.pow_succ', Nat.succ_eq_add_one, Nat.sub_add_cancel (by omega)]
    exact ⟨by omega, by omega, fun _ => rfl⟩
  next =>
    simp only [Nat.pow_eq]
    have hdivide : 10 ^ k * (n / 10 ^ k) + n % 10 ^ k = n := Nat.div_add_mod n _
    have hrest : n % 10 ^ k < 10 ^ k := Nat.mod_lt _ hpos
    generalize 10 ^ k = unit at *
    generalize n / unit = q at *
    generalize n % unit = r at *
    have hproduct : q * unit = unit * q := Nat.mul_comm ..
    have hnext : (q + 1) * unit = unit * q + unit := by ring
    split
    · exact ⟨by omega, by omega, by omega⟩
    · exact ⟨by omega, by omega, by omega⟩

namespace Nearest

/-- The distance is half a unit at most. -/
theorem abs_sub_le (h : Nearest n unit m) : |(m * unit : ℚ) - n| ≤ unit / 2 := by
  have habove : (2 * (m * unit) : ℚ) ≤ 2 * n + unit := by exact_mod_cast h.le_above
  have hbelow : (2 * n : ℚ) ≤ 2 * (m * unit) + unit := by exact_mod_cast h.le_below
  rw [abs_le]
  constructor <;> linarith

/-- At a distance of half a unit there are two nearest multiples, of which this is the even one. -/
theorem even_of_abs_eq (h : Nearest n unit m) (hdistance : |(m * unit : ℚ) - n| = unit / 2) :
    m % 2 = 0 := by
  refine h.even_of_tie ?_
  obtain heq | heq := eq_or_eq_neg_of_abs_eq hdistance
  · left
    have hrat : (2 * (m * unit) : ℚ) = 2 * n + unit := by linarith
    exact_mod_cast hrat
  · right
    have hrat : (2 * n : ℚ) = 2 * (m * unit) + unit := by linarith
    exact_mod_cast hrat

/-- What is nearest to a number between two multiples lies between them too. -/
theorem bounds {low high : Nat} (h : Nearest n unit m) (hlow : low * unit ≤ n)
    (hhigh : n < high * unit) : low ≤ m ∧ m ≤ high := by
  have hpos : 0 < unit := Nat.pos_of_mul_pos_left (by omega : 0 < high * unit)
  obtain ⟨habove, hbelow, -⟩ := h
  constructor
  · by_contra hlt
    have hle : (m + 1) * unit ≤ low * unit := Nat.mul_le_mul_right unit (by omega)
    rw [Nat.add_one_mul] at hle
    omega
  · by_contra hlt
    have hle : (high + 1) * unit ≤ m * unit := Nat.mul_le_mul_right unit (by omega)
    rw [Nat.add_one_mul] at hle
    omega

end Nearest

/-! ## Rounded numbers -/

/-- The coefficient, filled up with zeros to `places + 1` digits. -/
def filled (places : Nat) (d : Decimal) : Nat :=
  d.coefficient * 10 ^ (places + 1 - digitCount d.coefficient)

/-- How many digits there are beyond the first `places + 1` of them. -/
def surplus (places : Nat) (d : Decimal) : Nat :=
  digitCount d.coefficient - (places + 1)

theorem coefficient_pos (h : d.isZero = false) : 0 < d.coefficient := by
  simpa [isZero, Nat.pos_iff_ne_zero] using h

theorem filled_bounds (places : Nat) (h : d.isZero = false) :
    10 ^ places * 10 ^ d.surplus places ≤ d.filled places ∧
      d.filled places < 10 ^ (places + 1) * 10 ^ d.surplus places := by
  have hpos := coefficient_pos h
  have hfilled : 0 < d.filled places := Nat.mul_pos hpos (Nat.pow_pos (by decide))
  have hcount : digitCount (d.filled places) = places + d.surplus places + 1 := by
    have hcoefficient := digitCount_pos d.coefficient
    rw [filled, digitCount, ← Nat.pow_eq, toDigits_mul_pow hpos, List.length_append,
      List.length_replicate, ← digitCount, surplus]
    omega
  have hbounds := (digitCount_eq_iff hfilled).1 hcount
  rwa [← Nat.pow_add, ← Nat.pow_add, Nat.add_right_comm]

/-- What is rounded is the number itself. -/
theorem filled_mul (d : Decimal) (places : Nat) :
    (d.filled places : ℚ) * 10 ^ (d.adjusted - places - d.surplus places) =
      d.coefficient * 10 ^ d.exponent := by
  have hexponent : ((places + 1 - digitCount d.coefficient : Nat) : Int) +
      (d.adjusted - places - d.surplus places) = d.exponent := by
    have hcoefficient := digitCount_pos d.coefficient
    unfold adjusted surplus
    omega
  rw [filled, Nat.cast_mul, Nat.cast_pow, mul_assoc, ← zpow_natCast, Nat.cast_ofNat,
    ← zpow_add₀ (by norm_num), hexponent]

/-- The number that is shown if a number is shown with an exponent. -/
def rounded (places : Nat) (d : Decimal) : Decimal :=
  ⟨d.negative, (significant places d).1, (significant places d).2 - places⟩

/-- Rounding leaves the nearest number with `places` places behind the leading digit. If it has one
digit more, it is a power of ten, and the exponent takes the digit up. -/
theorem exists_nearest (places : Nat) (h : d.isZero = false) :
    ∃ m, Nearest (d.filled places) (10 ^ d.surplus places) m ∧
      (d.rounded places = ⟨d.negative, m, d.adjusted - places⟩ ∧ 10 ^ places ≤ m ∧
          m < 10 ^ (places + 1) ∨
        d.rounded places = ⟨d.negative, 10 ^ places, d.adjusted + 1 - places⟩ ∧
          m = 10 ^ (places + 1)) := by
  let m := roundHalfEven (d.filled places) (d.surplus places)
  have hnearest : Nearest (d.filled places) (10 ^ d.surplus places) m := nearest_roundHalfEven _ _
  obtain ⟨hlow, hhigh⟩ := filled_bounds places h
  obtain ⟨hle, hge⟩ := hnearest.bounds hlow hhigh
  have hsignificant : significant places d =
      if places + 1 < digitCount m then (m / 10, d.adjusted + 1) else (m, d.adjusted) := by
    have hfill : (-((digitCount d.coefficient : Int) - (places + 1))).toNat =
        places + 1 - digitCount d.coefficient := by omega
    have hdrop : ((digitCount d.coefficient : Int) - (places + 1)).toNat = d.surplus places := by
      unfold surplus
      omega
    unfold significant
    simp only [h, hfill, hdrop]
    rfl
  have hcount : places + 1 < digitCount m ↔ 10 ^ (places + 1) ≤ m := by
    rw [← Nat.not_le, digitCount_le_iff (Nat.succ_pos _), Nat.not_lt]
  refine ⟨m, hnearest, ?_⟩
  unfold rounded
  rw [hsignificant]
  split
  next hcarry =>
    have hm : m = 10 ^ (places + 1) := Nat.le_antisymm hge (hcount.1 hcarry)
    right
    rw [hm, Nat.pow_succ, Nat.mul_div_cancel _ (by decide)]
    exact ⟨rfl, rfl⟩
  next hcarry => exact .inl ⟨rfl, hle, Nat.lt_of_not_le fun hm => hcarry (hcount.2 hm)⟩

theorem abs_toRat_sub (h : w.negative = d.negative) :
    |w.toRat - d.toRat| =
      |(w.coefficient : ℚ) * 10 ^ w.exponent - d.coefficient * 10 ^ d.exponent| := by
  unfold toRat
  rw [h]
  cases d.negative
  · simp
  · rw [← abs_neg]
    simp only [if_true]
    congr 1
    ring

/-- The unit of the last place, in units of the last digit that is rounded. -/
theorem zpow_adjusted_sub (d : Decimal) (places : Nat) :
    (10 : ℚ) ^ (d.adjusted - places) =
      (10 ^ d.surplus places : Nat) * 10 ^ (d.adjusted - places - d.surplus places) := by
  rw [Nat.cast_pow, Nat.cast_ofNat, ← zpow_natCast, ← zpow_add₀ (by norm_num),
    add_sub_cancel]

theorem half_unit (d : Decimal) (places : Nat) :
    (5 : ℚ) * 10 ^ (d.adjusted - (places + 1)) =
      (10 ^ d.surplus places : Nat) / 2 * 10 ^ (d.adjusted - places - d.surplus places) := by
  rw [← sub_sub, zpow_sub_one₀ (by norm_num), zpow_adjusted_sub]
  ring

/-- The distance from the number, in units of the last digit that is rounded. -/
theorem exists_distance (places : Nat) (h : d.isZero = false) :
    ∃ m, Nearest (d.filled places) (10 ^ d.surplus places) m ∧
      ((d.rounded places).coefficient = m ∨ (d.rounded places).coefficient = 10 ^ places) ∧
      |(d.rounded places).toRat - d.toRat| =
        |(m * (10 ^ d.surplus places : Nat) : ℚ) - d.filled places| *
          10 ^ (d.adjusted - places - d.surplus places) := by
  obtain ⟨m, hnearest, hrounded⟩ := exists_nearest places h
  have hunits : ((d.rounded places).coefficient : ℚ) * 10 ^ (d.rounded places).exponent =
      m * 10 ^ (d.adjusted - places) := by
    obtain ⟨hrounded, -⟩ | ⟨hrounded, rfl⟩ := hrounded
    · rw [hrounded]
    · have hexponent : d.adjusted + 1 - places = (d.adjusted - places) + 1 := by omega
      rw [hrounded, hexponent, zpow_add_one₀ (by norm_num), Nat.cast_pow, Nat.cast_pow, pow_succ]
      push_cast
      ring
  refine ⟨m, hnearest, ?_, ?_⟩
  · obtain ⟨hrounded, -⟩ | ⟨hrounded, -⟩ := hrounded <;> rw [hrounded]
    · exact .inl rfl
    · exact .inr rfl
  · have hpos : (0 : ℚ) < 10 ^ (d.adjusted - places - d.surplus places) :=
      zpow_pos (by norm_num) _
    rw [abs_toRat_sub (w := d.rounded places) (d := d) rfl, hunits, ← filled_mul d places,
      zpow_adjusted_sub, ← mul_assoc, ← sub_mul, abs_mul, abs_of_pos hpos]

theorem toRat_of_isZero (h : d.isZero) : d.toRat = 0 := by
  have hcoefficient : d.coefficient = 0 := by simpa [isZero] using h
  simp [toRat, hcoefficient]

theorem rounded_of_isZero (h : d.isZero) : (d.rounded places).coefficient = 0 := by
  simp [rounded, significant, h]

theorem rounded_sub_of_isZero (h : d.isZero) : (d.rounded places).toRat - d.toRat = 0 := by
  have hrounded : (d.rounded places).isZero := by simp [isZero, rounded_of_isZero h]
  rw [toRat_of_isZero h, toRat_of_isZero hrounded, sub_zero]

/-- Rounding to places changes a number by half a unit of the last place at most. -/
theorem abs_rounded_sub_le (d : Decimal) (places : Nat) :
    |(d.rounded places).toRat - d.toRat| ≤ 5 * 10 ^ (d.adjusted - (places + 1)) := by
  cases h : d.isZero with
  | true =>
    rw [rounded_sub_of_isZero h, abs_zero]
    positivity
  | false =>
    obtain ⟨m, hnearest, -, hdistance⟩ := exists_distance places h
    rw [hdistance, half_unit]
    exact mul_le_mul_of_nonneg_right hnearest.abs_sub_le (by positivity)

/-- If it changes a number by half a unit, the last place is even. -/
theorem rounded_even (hplaces : 0 < places)
    (hdistance : |(d.rounded places).toRat - d.toRat| = 5 * 10 ^ (d.adjusted - (places + 1))) :
    (d.rounded places).coefficient % 2 = 0 := by
  cases h : d.isZero with
  | true => rw [rounded_of_isZero h]
  | false =>
    obtain ⟨m, hnearest, hm | hcarry, heq⟩ := exists_distance places h
    · rw [heq, half_unit] at hdistance
      have hpos : (10 : ℚ) ^ (d.adjusted - places - d.surplus places) ≠ 0 := by positivity
      rw [hm]
      exact hnearest.even_of_abs_eq (mul_right_cancel₀ hpos hdistance)
    · obtain ⟨k, rfl⟩ := Nat.exists_eq_add_of_le' hplaces
      rw [hcarry, Nat.pow_succ]
      omega

/-- The digits that are shown are `places + 1` or, of zero, one. -/
theorem rounded_bounds (d : Decimal) (places : Nat) :
    (d.rounded places).coefficient < 10 ^ (places + 1) ∧
      (d.isZero = false → 10 ^ places ≤ (d.rounded places).coefficient) := by
  cases h : d.isZero with
  | true =>
    rw [rounded_of_isZero h]
    exact ⟨Nat.pow_pos (by decide), fun hfalse => nomatch hfalse⟩
  | false =>
    obtain ⟨m, -, ⟨hrounded, hle, hlt⟩ | ⟨hrounded, -⟩⟩ := exists_nearest places h
    · rw [hrounded]
      exact ⟨hlt, fun _ => hle⟩
    · rw [hrounded]
      exact ⟨Nat.pow_lt_pow_right (by decide) (Nat.lt_succ_self _), fun _ => Nat.le_refl _⟩

end Spreadsheet.Decimal
