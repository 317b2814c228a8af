import Mathlib.Algebra.Order.Field.Rat
import Mathlib.Tactic.NormNum
import Spreadsheet.Proofs.Decimal.Notation

/-!
# Plain forms and rational numbers

The plain form of a number has all of its digits and no exponent. So a number with a positive exponent
is not read back as the same decimal, but as one that stands for the same rational number. It is a
literal if the number is in the range of literals.

## Main definitions

* `Decimal.toRat` — the rational number that a decimal stands for.
* `Decimal.flat` — a number with its exponent written out.
* `Decimal.IsPositional` — texts of digits, signs and points.

## Main statements

* `Decimal.writes_toPlain` — the plain form of a number is a numeral of the flat one.
* `Decimal.ofLiteral?_toPlain` — literals are read from their plain forms.
-/

namespace Spreadsheet

namespace Numeral

/-- Zeros behind the digits of a number are powers of ten. -/
theorem toDigits_mul_pow {n : Nat} (hn : 0 < n) (k : Nat) :
    Nat.toDigits 10 (n * Nat.pow 10 k) = Nat.toDigits 10 n ++ List.replicate k '0' := by
  induction k with
  | zero => simp
  | succ k ih =>
    have hpos : 0 < n * Nat.pow 10 k := Nat.mul_pos hn (Nat.pow_pos (by decide))
    have hzero : Nat.toDigits 10 0 = ['0'] := rfl
    have hnext : n * Nat.pow 10 (k + 1) = 10 * (n * Nat.pow 10 k) + 0 := by
      rw [Nat.pow_eq, Nat.pow_eq, Nat.pow_succ, ← Nat.mul_assoc, Nat.mul_comm, Nat.add_zero]
    rw [hnext, ← Nat.toDigits_append_toDigits (by decide) hpos (by decide), ih, hzero,
      List.append_assoc, List.replicate_succ']

end Numeral

namespace Decimal

open Numeral

variable {d : Decimal} {s : String}

/-! ## Rational numbers -/

/-- The rational number that a decimal stands for. -/
def toRat (d : Decimal) : ℚ :=
  (if d.negative then -1 else 1) * d.coefficient * (10 : ℚ) ^ d.exponent

/-- A number with its exponent written out, if that is positive. -/
def flat (d : Decimal) : Decimal :=
  if d.exponent < 0 then d else ⟨d.negative, d.coefficientAt 0, 0⟩

theorem toRat_flat (d : Decimal) : d.flat.toRat = d.toRat := by
  unfold flat
  split
  · rfl
  next h =>
    obtain ⟨k, hk⟩ := Int.eq_ofNat_of_zero_le (Int.not_lt.1 h)
    by_cases hzero : d.coefficient = 0
    · simp [toRat, coefficientAt, hzero]
    · simp [toRat, coefficientAt, hzero, hk]

theorem isZero_flat (d : Decimal) : d.flat.isZero = d.isZero := by
  unfold flat
  split
  · rfl
  · by_cases hzero : d.coefficient = 0 <;> simp [isZero, coefficientAt, hzero]

/-- The leading digit of a number stays where it is. -/
theorem adjusted_flat (h : d.isZero = false) : d.flat.adjusted = d.adjusted := by
  unfold flat
  split
  · rfl
  next hexponent =>
    have hzero : d.coefficient ≠ 0 := by simpa [isZero] using h
    have hcount : digitCount (d.coefficientAt 0) = digitCount d.coefficient + d.exponent.toNat := by
      rw [coefficientAt, if_neg hzero, digitCount, Int.sub_zero,
        toDigits_mul_pow (Nat.pos_of_ne_zero hzero), List.length_append, List.length_replicate]
      rfl
    simp only [adjusted, hcount]
    omega

/-! ## The plain form -/

/-- Texts of digits, signs and points. There is no exponent in them. -/
def IsPositional (s : String) : Prop :=
  ∀ c ∈ s.toList, c.isDigit ∨ c = '-' ∨ c = '.'

/-- The plain form of a number is a numeral of the flat one. -/
theorem writes_toPlain (d : Decimal) : Writes d.flat d.toPlain.toList := by
  unfold toPlain flat
  by_cases hexponent : d.exponent < 0
  · have h := writes_append d (-d.exponent).toNat [] (e := 0) (by omega) (by simp) rfl (by simp)
    have hplaces : (-d.exponent).toNat ≠ 0 := by omega
    simpa [hexponent, hplaces] using h
  · have h := writes_append ⟨d.negative, d.coefficientAt 0, 0⟩ 0 [] rfl (by simp) rfl (by simp)
    have hdigits : digitText (d.coefficientAt 0) =
        if d.isZero then "0" else digitText d.coefficient ++ zeros d.exponent.toNat := by
      by_cases hzero : d.coefficient = 0
      · rw [coefficientAt, if_pos hzero, isZero, hzero]
        rfl
      · rw [coefficientAt, if_neg hzero, digitText, Int.sub_zero,
          toDigits_mul_pow (Nat.pos_of_ne_zero hzero)]
        simp [isZero, hzero, digitText, zeros]
    rw [if_pos rfl, hdigits, List.append_nil] at h
    rw [if_neg hexponent, if_neg hexponent, String.toList_append]
    exact h

theorem isPositional_toPlain (d : Decimal) : IsPositional d.toPlain := by
  intro c hc
  unfold toPlain at hc
  rw [String.toList_append, List.mem_append, toList_signText] at hc
  obtain hc | hc := hc
  · split at hc
    · exact .inr (.inl (List.mem_singleton.1 hc))
    · cases hc
  split at hc
  · obtain ⟨whole, fraction, htext, -, -, hwhole, hfraction, -⟩ :=
      exists_toList_pointText d.coefficient (-d.exponent).toNat
    rw [htext, List.mem_append, List.mem_cons] at hc
    obtain hc | rfl | hc := hc
    · exact .inl (hwhole c hc)
    · exact .inr (.inr rfl)
    · exact .inl (hfraction c hc)
  split at hc
  · obtain rfl := List.mem_singleton.1 hc
    exact .inl rfl
  · simp only [digitText, zeros, String.toList_append, String.toList_ofList, List.mem_append] at hc
    obtain hc | hc := hc
    · exact .inl (isDigit_of_mem_toDigits hc)
    · rw [List.eq_of_mem_replicate hc]
      exact .inl rfl

/-! ## Literals -/

/-- Literals are in the range of literals. -/
theorem inRange_of_ofLiteral? (h : ofLiteral? s = some d) :
    if d.isZero then d.isRepresentable else d.isNormal := by
  simpa using (Option.filter_eq_some_iff.1 h).2

/-- A number in the range of literals stays there when its exponent is written out. -/
theorem inRange_flat (h : if d.isZero then d.isRepresentable else d.isNormal) :
    if d.flat.isZero then d.flat.isRepresentable else d.flat.isNormal := by
  rw [isZero_flat]
  cases hzero : d.isZero with
  | false =>
    rw [hzero] at h
    simpa [isNormal, adjusted_flat hzero] using h
  | true =>
    have hflat : d.flat = d ∨ d.flat = ⟨d.negative, 0, 0⟩ := by
      have hcoefficient : d.coefficientAt 0 = 0 := if_pos (by simpa [isZero] using hzero)
      rw [flat, hcoefficient]
      exact ite_eq_or_eq ..
    rw [hzero, if_pos rfl] at h
    rw [if_pos rfl]
    obtain hflat | hflat := hflat <;> rw [hflat]
    · exact h
    · rfl

/-- The plain form of a number in the range of literals is read as the number with its exponent
written out. -/
theorem ofLiteral?_toPlain_of_inRange (h : if d.isZero then d.isRepresentable else d.isNormal) :
    ofLiteral? d.toPlain = some d.flat := by
  have hplain : d.toPlain.toList = [] ++ d.toPlain.toList ++ [] := by simp
  rw [d.writes_toPlain.ofLiteral?_eq (by simp) hplain]
  exact if_pos (by simpa using inRange_flat h)

/-- A literal is read from its plain form as the number with its exponent written out. -/
theorem ofLiteral?_toPlain (h : ofLiteral? s = some d) : ofLiteral? d.toPlain = some d.flat :=
  ofLiteral?_toPlain_of_inRange (inRange_of_ofLiteral? h)

end Decimal

end Spreadsheet
