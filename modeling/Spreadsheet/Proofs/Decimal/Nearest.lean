import Mathlib.Algebra.Order.Floor.Ring
import Mathlib.Data.Int.Log
import Mathlib.Data.Rat.Floor
import Spreadsheet.Proofs.Decimal.Rounding

/-!
# Rounding rational numbers

The exact results that arithmetic rounds are rational numbers: a quotient need not be a decimal. A
rational number is rounded to the nearest multiple of a power of ten, or to a number of significant
digits, and of two multiples that are equally near to the even one. No rounding leads past a
multiple of the power, so integers and higher powers of ten stay bounds. Digits below the power
decide only through the neighbouring multiples of a lower one that they lie between.

## Main definitions

* `towardZero` — a number without its fraction.
* `nearestInteger`, `nearestMultiple` — the nearest integer and the nearest multiple.
* `roundedTo` — a number with a fixed number of significant digits.
* `IsMultiple` — the multiples of a power of ten.
* `SameDigits` — numbers that only differ below a power of ten.

## Main statements

* `nearestInteger_eq` — the nearest integer is the one at a distance of half at most.
* `nearestMultiple_le`, `le_nearestMultiple` — multiples are bounds.
* `roundedTo_ne_of_lt` — quotients that are not rounded up to an integer.
* `SameDigits.nearestMultiple_eq`, `SameDigits.log_eq` — what the digits below a power decide.
-/

namespace Spreadsheet

variable {x y z : ℚ} {e k m : ℤ}

/-! ## Toward zero -/

/-- A number without its fraction. -/
def towardZero (x : ℚ) : ℤ :=
  if 0 ≤ x then ⌊x⌋ else ⌈x⌉

theorem towardZero_of_nonneg (h : 0 ≤ x) : towardZero x = ⌊x⌋ :=
  if_pos h

theorem towardZero_neg_of_nonneg (h : 0 ≤ x) : towardZero (-x) = -⌊x⌋ := by
  unfold towardZero
  split
  next hneg =>
    obtain rfl : x = 0 := by linarith
    simp
  next => rw [Int.ceil_neg]

theorem abs_towardZero_le (x : ℚ) : |(towardZero x : ℚ)| ≤ |x| := by
  have hfloor : ∀ {y : ℚ}, 0 ≤ y → |(⌊y⌋ : ℚ)| ≤ |y| := fun {y} hy => by
    have hnonneg : (0 : ℚ) ≤ ⌊y⌋ := by exact_mod_cast Int.floor_nonneg.2 hy
    rw [abs_of_nonneg hnonneg, abs_of_nonneg hy]
    exact Int.floor_le y
  obtain hx | hx := le_total 0 x
  · rw [towardZero_of_nonneg hx]
    exact hfloor hx
  · rw [← neg_neg x, towardZero_neg_of_nonneg (neg_nonneg.2 hx), Int.cast_neg, abs_neg, abs_neg]
    exact hfloor (neg_nonneg.2 hx)

/-- A multiple of the divisor is taken that is not beyond the dividend. -/
theorem abs_towardZero_div_mul_le (x : ℚ) (hy : y ≠ 0) : |towardZero (x / y) * y| ≤ |x| := by
  rw [abs_mul, ← le_div_iff₀ (abs_pos.2 hy), ← abs_div]
  exact abs_towardZero_le _

/-! ## The nearest integer -/

/-- The nearest integer, of two that are equally near the even one. -/
def nearestInteger (x : ℚ) : ℤ :=
  if Int.fract x < 1 / 2 ∨ Int.fract x = 1 / 2 ∧ Even ⌊x⌋ then ⌊x⌋ else ⌊x⌋ + 1

theorem nearestInteger_eq_or (x : ℚ) : nearestInteger x = ⌊x⌋ ∨ nearestInteger x = ⌊x⌋ + 1 :=
  ite_eq_or_eq ..

@[simp] theorem nearestInteger_intCast (m : ℤ) : nearestInteger m = m := by
  simp [nearestInteger]

theorem le_nearestInteger (h : (m : ℚ) ≤ x) : m ≤ nearestInteger x := by
  have hfloor : m ≤ ⌊x⌋ := Int.le_floor.2 h
  obtain hx | hx := nearestInteger_eq_or x <;> omega

theorem nearestInteger_le (h : x ≤ m) : nearestInteger x ≤ m := by
  obtain rfl | hlt := h.eq_or_lt
  · rw [nearestInteger_intCast]
  · have hfloor : ⌊x⌋ < m := Int.floor_lt.2 hlt
    obtain hx | hx := nearestInteger_eq_or x <;> omega

theorem abs_nearestInteger_sub_le (x : ℚ) : |nearestInteger x - x| ≤ 1 / 2 := by
  have hfloor : (⌊x⌋ : ℚ) + Int.fract x = x := Int.floor_add_fract x
  have hnonneg := Int.fract_nonneg x
  have hlt := Int.fract_lt_one x
  unfold nearestInteger
  split
  next h =>
    have hle : Int.fract x ≤ 1 / 2 := h.elim le_of_lt fun h => h.1.le
    rw [abs_le]
    constructor <;> linarith
  next h =>
    have hge : 1 / 2 ≤ Int.fract x := le_of_not_gt fun hless => h (.inl hless)
    push_cast
    rw [abs_le]
    constructor <;> linarith

/-- An integer at a distance of half at most, which is even if the distance is half, is the nearest
one. -/
theorem nearestInteger_eq (h : |m - x| ≤ 1 / 2) (heven : |m - x| = 1 / 2 → Even m) :
    nearestInteger x = m := by
  obtain ⟨hbelow, habove⟩ := abs_le.1 h
  unfold nearestInteger
  by_cases hle : (m : ℚ) ≤ x
  · have hfloor : ⌊x⌋ = m := Int.floor_eq_iff.2 ⟨hle, by linarith⟩
    have hfract : Int.fract x = x - m := by rw [← hfloor, Int.self_sub_floor]
    have hdistance : |m - x| = x - m := by rw [abs_sub_comm, abs_of_nonneg (by linarith)]
    rw [if_pos, hfloor]
    obtain hhalf | hhalf := h.lt_or_eq
    · exact .inl (by linarith)
    · exact .inr ⟨by linarith, hfloor ▸ heven hhalf⟩
  · have hfloor : ⌊x⌋ = m - 1 := Int.floor_eq_iff.2 ⟨by push_cast; linarith, by push_cast; linarith⟩
    have hfract : Int.fract x = x - m + 1 := by
      rw [← Int.self_sub_floor, hfloor]
      push_cast
      ring
    have hdistance : |m - x| = m - x := abs_of_nonneg (by linarith)
    rw [if_neg, hfloor, sub_add_cancel]
    rintro (hless | ⟨hhalf, hodd⟩)
    · linarith
    · have hm : Even m := heven (by linarith)
      rw [hfloor] at hodd
      exact absurd hodd (by simpa [Int.even_sub_one] using hm)

/-- Natural numbers are rounded like rational ones. -/
theorem nearestInteger_natCast_div (n k : Nat) :
    nearestInteger ((n : ℚ) / 10 ^ k) = Decimal.roundHalfEven n k := by
  have hnearest := Decimal.nearest_roundHalfEven n k
  have hpos : (0 : ℚ) < 10 ^ k := by positivity
  generalize Decimal.roundHalfEven n k = m at *
  have hdistance : |((m : ℤ) : ℚ) - n / 10 ^ k| = |(m * (10 ^ k : Nat) : ℚ) - n| / 10 ^ k := by
    rw [← abs_of_pos hpos, ← abs_div, abs_of_pos hpos]
    congr 1
    push_cast
    field_simp
  refine nearestInteger_eq ?_ fun hhalf => ?_
  · have hle := hnearest.abs_sub_le
    rw [hdistance, div_le_iff₀ hpos]
    push_cast at hle ⊢
    linarith
  · have heven := hnearest.even_of_abs_eq (by
      rw [hdistance, div_eq_iff hpos.ne'] at hhalf
      push_cast at hhalf ⊢
      linarith)
    exact_mod_cast Nat.even_iff.2 heven

/-! ## Multiples of a power of ten -/

/-- The multiples of `10 ^ k`. -/
def IsMultiple (k : ℤ) (x : ℚ) : Prop :=
  ∃ m : ℤ, x = m * 10 ^ k

theorem isMultiple_zpow (h : k ≤ e) : IsMultiple k (10 ^ e) := by
  obtain ⟨n, rfl⟩ := Int.le.dest h
  refine ⟨10 ^ n, ?_⟩
  rw [zpow_add₀ (by norm_num), zpow_natCast, mul_comm]
  push_cast
  rfl

theorem IsMultiple.int_mul (h : IsMultiple k x) (m : ℤ) : IsMultiple k (m * x) := by
  obtain ⟨n, rfl⟩ := h
  exact ⟨m * n, by push_cast; ring⟩

theorem IsMultiple.of_le (h : IsMultiple e x) (hk : k ≤ e) : IsMultiple k x := by
  obtain ⟨m, rfl⟩ := h
  exact (isMultiple_zpow hk).int_mul m

theorem isMultiple_intCast (hk : k ≤ 0) (m : ℤ) : IsMultiple k (m : ℚ) := by
  simpa using (isMultiple_zpow hk).int_mul m

/-- The nearest multiple of `10 ^ k`, of two that are equally near the even one. -/
def nearestMultiple (k : ℤ) (x : ℚ) : ℚ :=
  nearestInteger (x / 10 ^ k) * 10 ^ k

/-- A number with so many significant digits, of two that are equally near the even one. -/
def roundedTo (digits : Nat) (x : ℚ) : ℚ :=
  nearestMultiple (Int.log 10 |x| - (digits - 1)) x

theorem le_nearestMultiple (hy : IsMultiple k y) (h : y ≤ x) : y ≤ nearestMultiple k x := by
  obtain ⟨m, rfl⟩ := hy
  have hpos : (0 : ℚ) < 10 ^ k := by positivity
  have hm : m ≤ nearestInteger (x / 10 ^ k) := le_nearestInteger ((le_div_iff₀ hpos).2 h)
  exact mul_le_mul_of_nonneg_right (by exact_mod_cast hm) hpos.le

theorem nearestMultiple_le (hy : IsMultiple k y) (h : x ≤ y) : nearestMultiple k x ≤ y := by
  obtain ⟨m, rfl⟩ := hy
  have hpos : (0 : ℚ) < 10 ^ k := by positivity
  have hm : nearestInteger (x / 10 ^ k) ≤ m := nearestInteger_le ((div_le_iff₀ hpos).2 h)
  exact mul_le_mul_of_nonneg_right (by exact_mod_cast hm) hpos.le

theorem nearestMultiple_eq_self (h : IsMultiple k x) : nearestMultiple k x = x :=
  le_antisymm (nearestMultiple_le h le_rfl) (le_nearestMultiple h le_rfl)

/-- Rounding changes a number by half a unit of the power at most. -/
theorem abs_nearestMultiple_sub_le (k : ℤ) (x : ℚ) :
    |nearestMultiple k x - x| ≤ 10 ^ k / 2 := by
  have hpos : (0 : ℚ) < 10 ^ k := by positivity
  have hdistance : nearestMultiple k x - x =
      (nearestInteger (x / 10 ^ k) - x / 10 ^ k) * 10 ^ k := by
    rw [nearestMultiple, sub_mul, div_mul_cancel₀ _ hpos.ne']
  have hle := mul_le_mul_of_nonneg_right (abs_nearestInteger_sub_le (x / 10 ^ k)) hpos.le
  rw [hdistance, abs_mul, abs_of_pos hpos]
  linarith

theorem floor_le_nearestMultiple (hk : k ≤ 0) (x : ℚ) : (⌊x⌋ : ℚ) ≤ nearestMultiple k x :=
  le_nearestMultiple (isMultiple_intCast hk _) (Int.floor_le x)

theorem nearestMultiple_le_floor_add_one (hk : k ≤ 0) (x : ℚ) :
    nearestMultiple k x ≤ ((⌊x⌋ + 1 : ℤ) : ℚ) :=
  nearestMultiple_le (isMultiple_intCast hk _) (by push_cast; exact (Int.lt_floor_add_one x).le)

/-- Without its fraction, a rounded number is the integer part or the next integer. -/
theorem floor_nearestMultiple (hk : k ≤ 0) (x : ℚ) :
    ⌊nearestMultiple k x⌋ =
      if nearestMultiple k x = ((⌊x⌋ + 1 : ℤ) : ℚ) then ⌊x⌋ + 1 else ⌊x⌋ := by
  split
  next h => rw [h, Int.floor_intCast]
  next h =>
    refine Int.floor_eq_iff.2 ⟨floor_le_nearestMultiple hk x, ?_⟩
    exact_mod_cast (nearestMultiple_le_floor_add_one hk x).lt_of_ne h

@[simp] theorem roundedTo_zero (digits : Nat) : roundedTo digits 0 = 0 :=
  nearestMultiple_eq_self ⟨0, by simp⟩

/-- Rounding to significant digits changes a number by half a unit of the last one at most. -/
theorem abs_roundedTo_sub_le (digits : Nat) (x : ℚ) :
    |roundedTo digits x - x| ≤ 10 ^ (Int.log 10 |x| - (digits - 1)) / 2 :=
  abs_nearestMultiple_sub_le _ x

/-- A quotient of natural numbers is no nearer to the next integer than the divisor allows. -/
theorem one_le_next_sub_mul {n d : Nat} (hd : 0 < d) :
    1 ≤ (((⌊(n : ℚ) / d⌋ + 1 : ℤ) : ℚ) - n / d) * d := by
  have hpos : (0 : ℚ) < d := by exact_mod_cast hd
  have hlt : (n : ℚ) < ((⌊(n : ℚ) / d⌋ + 1 : ℤ) : ℚ) * d := by
    rw [← div_lt_iff₀ hpos]
    push_cast
    exact Int.lt_floor_add_one _
  have hle : (n : ℤ) + 1 ≤ (⌊(n : ℚ) / d⌋ + 1) * d := Int.add_one_le_of_lt (by exact_mod_cast hlt)
  rw [sub_mul, div_mul_cancel₀ _ hpos.ne', le_sub_iff_add_le']
  exact_mod_cast hle

/-- A quotient is not rounded up to an integer if the dividend has fewer digits than are kept, or as
many and begins with a one. -/
theorem roundedTo_ne_of_lt {n d digits : Nat} (hd : 0 < d) (hn : n < 2 * 10 ^ digits) :
    roundedTo (digits + 1) ((n : ℚ) / d) ≠ ((⌊(n : ℚ) / d⌋ + 1 : ℤ) : ℚ) := by
  intro hup
  have hpos : (0 : ℚ) < d := by exact_mod_cast hd
  obtain rfl | hnpos := Nat.eq_zero_or_pos n
  · simp at hup
  have hgap := one_le_next_sub_mul (n := n) hd
  have hdistance := abs_roundedTo_sub_le (digits + 1) ((n : ℚ) / d)
  have hxd : (n : ℚ) / d * d = n := div_mul_cancel₀ _ hpos.ne'
  have hx : (0 : ℚ) < n / d := div_pos (by exact_mod_cast hnpos) hpos
  generalize (n : ℚ) / d = x at *
  rw [hup, abs_of_pos hx, Nat.cast_add_one, add_sub_cancel_right] at hdistance
  have hlead : (10 : ℚ) ^ Int.log 10 x ≤ x := by
    simpa using Int.zpow_log_le_self (by decide : 1 < 10) hx
  have hpow : (10 : ℚ) ^ digits * 10 ^ (Int.log 10 x - digits) = 10 ^ Int.log 10 x := by
    rw [← zpow_natCast, ← zpow_add₀ (by norm_num), add_sub_cancel]
  -- the next integer is `1 / d` away at least, and half a unit of the last digit at most
  have hge : (2 * 10 ^ digits : ℚ) ≤ n :=
    calc (2 * 10 ^ digits : ℚ)
        ≤ 2 * 10 ^ digits * ((((⌊x⌋ + 1 : ℤ) : ℚ) - x) * d) :=
          le_mul_of_one_le_right (by positivity) hgap
      _ ≤ 2 * 10 ^ digits * (10 ^ (Int.log 10 x - digits) / 2 * d) := by
          gcongr
          exact (le_abs_self _).trans hdistance
      _ = 10 ^ Int.log 10 x * d := by
          rw [← hpow]
          ring
      _ ≤ x * d := by gcongr
      _ = n := hxd
  exact absurd hn (Nat.not_lt.2 (by exact_mod_cast hge))

/-! ## Digits below a power of ten -/

/-- Whether two numbers only differ below `10 ^ e`: they are equal, or lie between the same
neighbouring multiples of it. -/
inductive SameDigits (e : ℤ) : ℚ → ℚ → Prop
  | refl (x : ℚ) : SameDigits e x x
  | between {x y : ℚ} (m : ℤ) (hx : m * 10 ^ e < x) (hx' : x < (m + 1) * 10 ^ e)
    (hy : m * 10 ^ e < y) (hy' : y < (m + 1) * 10 ^ e) : SameDigits e x y

namespace SameDigits

theorem symm (h : SameDigits e x y) : SameDigits e y x := by
  cases h with
  | refl => exact .refl x
  | between m hx hx' hy hy' => exact .between m hy hy' hx hx'

/-- Multiples of the power do not tell the numbers apart. -/
theorem le_of_le (h : SameDigits e x y) (hz : IsMultiple e z) (hle : z ≤ x) : z ≤ y := by
  cases h with
  | refl => exact hle
  | between m hx hx' hy hy' =>
    obtain ⟨n, rfl⟩ := hz
    have hpos : (0 : ℚ) < 10 ^ e := by positivity
    have hlt : n < m + 1 := by exact_mod_cast lt_of_mul_lt_mul_right (hle.trans_lt hx') hpos.le
    have hnm : (n : ℚ) * 10 ^ e ≤ m * 10 ^ e :=
      mul_le_mul_of_nonneg_right (by exact_mod_cast Int.le_of_lt_add_one hlt) hpos.le
    exact hnm.trans hy.le

theorem le_iff (h : SameDigits e x y) (hz : IsMultiple e z) : z ≤ x ↔ z ≤ y :=
  ⟨h.le_of_le hz, h.symm.le_of_le hz⟩

theorem lt_iff (h : SameDigits e x y) (hz : IsMultiple e z) : x < z ↔ y < z := by
  rw [← not_le, h.le_iff hz, not_le]

theorem eq_iff (h : SameDigits e x y) (hz : IsMultiple e z) : x = z ↔ y = z := by
  cases h with
  | refl => rfl
  | between m hx hx' hy hy' =>
    obtain ⟨n, rfl⟩ := hz
    have hpos : (0 : ℚ) < 10 ^ e := by positivity
    have hbetween : ∀ w : ℚ, m * 10 ^ e < w → w < (m + 1) * 10 ^ e → w ≠ n * 10 ^ e := by
      rintro w hw hw' rfl
      have hlow : m < n := by exact_mod_cast lt_of_mul_lt_mul_right hw hpos.le
      have hhigh : n < m + 1 := by exact_mod_cast lt_of_mul_lt_mul_right hw' hpos.le
      omega
    exact iff_of_false (hbetween x hx hx') (hbetween y hy hy')

/-- The leading digits of the numbers are at one place, unless they are below the power. -/
theorem log_eq (h : SameDigits e x y) (hle : 10 ^ e ≤ x) : Int.log 10 x = Int.log 10 y := by
  have hx : 0 < x := lt_of_lt_of_le (by positivity) hle
  have hle' : 10 ^ e ≤ y := h.le_of_le (isMultiple_zpow le_rfl) hle
  have hy : 0 < y := lt_of_lt_of_le (by positivity) hle'
  have hlog : ∀ {z : ℚ} {j : ℤ}, 0 < z → ((10 : ℚ) ^ j ≤ z ↔ j ≤ Int.log 10 z) := fun hz => by
    simpa using Int.zpow_le_iff_le_log (by decide : 1 < 10) hz
  have hplaces : ∀ {z : ℚ}, 0 < z → 10 ^ e ≤ z → IsMultiple e (10 ^ Int.log 10 z) :=
    fun hz hle => isMultiple_zpow ((hlog hz).1 hle)
  refine le_antisymm ((hlog hy).1 ?_) ((hlog hx).1 ?_)
  · exact h.le_of_le (hplaces hx hle) ((hlog hx).2 le_rfl)
  · exact h.symm.le_of_le (hplaces hy hle') ((hlog hy).2 le_rfl)

/-- They are rounded alike to multiples of a higher power, since the middle between two of these is
a multiple of the power too. -/
theorem nearestMultiple_eq (h : SameDigits e x y) (hk : e < k) :
    nearestMultiple k x = nearestMultiple k y := by
  have hpos : (0 : ℚ) < 10 ^ k := by positivity
  have hmultiple : ∀ n : ℤ, IsMultiple e (n * 10 ^ k) := fun n =>
    (isMultiple_zpow hk.le).int_mul n
  have hmiddle : ∀ n : ℤ, IsMultiple e ((n + 1 / 2) * 10 ^ k) := fun n => by
    have hhalf : ((n : ℚ) + 1 / 2) * 10 ^ k = ((10 * n + 5 : ℤ) : ℚ) * 10 ^ (k - 1) := by
      rw [zpow_sub_one₀ (by norm_num)]
      push_cast
      ring
    rw [hhalf]
    exact (isMultiple_zpow (by omega)).int_mul _
  have hfloor : ⌊x / 10 ^ k⌋ = ⌊y / 10 ^ k⌋ := by
    refine Int.floor_eq_iff.2 ⟨?_, ?_⟩
    · rw [le_div_iff₀ hpos, h.le_iff (hmultiple _), ← le_div_iff₀ hpos]
      exact Int.floor_le _
    · -- the next multiple is written as one, so that it does not tell the numbers apart either
      have hnext : (⌊y / 10 ^ k⌋ : ℚ) + 1 = ((⌊y / 10 ^ k⌋ + 1 : ℤ) : ℚ) := by push_cast; rfl
      rw [hnext, div_lt_iff₀ hpos, h.lt_iff (hmultiple _), ← div_lt_iff₀ hpos, ← hnext]
      exact Int.lt_floor_add_one _
  have hless : Int.fract (x / 10 ^ k) < 1 / 2 ↔ Int.fract (y / 10 ^ k) < 1 / 2 := by
    rw [← Int.self_sub_floor, ← Int.self_sub_floor, hfloor, sub_lt_iff_lt_add', sub_lt_iff_lt_add',
      div_lt_iff₀ hpos, div_lt_iff₀ hpos, h.lt_iff (hmiddle _)]
  have htie : Int.fract (x / 10 ^ k) = 1 / 2 ↔ Int.fract (y / 10 ^ k) = 1 / 2 := by
    rw [← Int.self_sub_floor, ← Int.self_sub_floor, hfloor, sub_eq_iff_eq_add', sub_eq_iff_eq_add',
      div_eq_iff hpos.ne', div_eq_iff hpos.ne', h.eq_iff (hmiddle _)]
  unfold nearestMultiple nearestInteger
  simp only [hfloor, hless, htie]

end SameDigits

end Spreadsheet
