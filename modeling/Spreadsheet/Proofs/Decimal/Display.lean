import Mathlib.Data.List.Induction
import Spreadsheet.Proofs.Decimal.Rounding

/-!
# How numbers are shown

A number is shown by its plain form if that is short enough, and then exactly. Otherwise five digits
are shown with an exponent, and they stand for the number with these digits that is nearest to it. The
first of them is zero only if the number is zero.

## Main definitions

* `Decimal.ScientificForm` — numbers written with four places and an exponent.

## Main statements

* `Decimal.ScientificForm.parse?_chars` — the number that such a form is written for.
* `Decimal.exists_scientificForm` — a number in this form.
* `Decimal.toDisplay_accurate` — how near the number shown is to the number.
-/

namespace Spreadsheet

variable {digits : List Char} {n : Nat}

/-! ## Digits -/

namespace Numeral

theorem value_lt (h : ∀ c ∈ digits, c.isDigit) : value digits < 10 ^ digits.length := by
  induction digits using List.reverseRecOn with
  | nil => simp [value]
  | append_singleton digits c ih =>
    have hc : digitValue c < 10 := digitValue_lt (h c (by simp))
    have hlt := ih fun d hd => h d (List.mem_append_left _ hd)
    rw [value_append_singleton, List.length_append, List.length_singleton, Nat.pow_succ]
    omega

end Numeral

namespace Decimal

open Numeral

variable {d : Decimal}

/-! ## The form with an exponent -/

/-- A number with one digit before the point and four behind it. The exponent has a sign and three
digits at least. -/
structure ScientificForm where
  negative : Bool
  lead : Char
  places : List Char
  negativeExponent : Bool
  exponent : List Char
  isDigit_lead : lead.isDigit
  isDigit_places : ∀ c ∈ places, c.isDigit
  length_places : places.length = 4
  isDigit_exponent : ∀ c ∈ exponent, c.isDigit
  length_exponent : 3 ≤ exponent.length

namespace ScientificForm

/-- The characters of such a number. -/
def chars (f : ScientificForm) : List Char :=
  (if f.negative then ['-'] else []) ++ f.lead :: '.' :: f.places ++
    'E' :: (if f.negativeExponent then '-' else '+') :: f.exponent

/-- The number that it is written for. -/
def value (f : ScientificForm) : Decimal :=
  let exponent : Int := Numeral.value f.exponent
  ⟨f.negative, Numeral.value (f.lead :: f.places),
    (if f.negativeExponent then -exponent else exponent) - 4⟩

/-- The last digit before the exponent. -/
def last (f : ScientificForm) : Char :=
  f.places.getLast (List.ne_nil_of_length_eq_add_one f.length_places)

theorem parse?_chars (f : ScientificForm) : parse? f.chars = some f.value := by
  have hexponent : f.exponent ≠ [] := by
    rw [← List.length_pos_iff]
    exact Nat.lt_of_lt_of_le (by decide) f.length_exponent
  have hplaces : f.places ≠ [] := List.ne_nil_of_length_eq_add_one f.length_places
  have hchars : f.chars = (if f.negative then ['-'] else []) ++ ([f.lead] ++
      ((if f.places = [] then [] else '.' :: f.places) ++
        'E' :: (if f.negativeExponent then '-' else '+') :: f.exponent)) := by
    simp [chars, hplaces]
  rw [hchars, parse?_append (by simp) (by simpa using f.isDigit_lead) f.isDigit_places (by simp)
    (exponent?_digits f.negativeExponent hexponent f.isDigit_exponent), f.length_places]
  rfl

/-- The last digit tells whether the digits are those of an even number. -/
theorem digitValue_last (f : ScientificForm) :
    digitValue f.last % 2 = f.value.coefficient % 2 := by
  have hplaces : f.places ≠ [] := List.ne_nil_of_length_eq_add_one f.length_places
  have hcoefficient : f.value.coefficient =
      10 * Numeral.value (f.lead :: f.places.dropLast) + digitValue f.last := by
    rw [← value_append_singleton, last, List.cons_append, List.dropLast_concat_getLast hplaces]
    rfl
  omega

theorem lead_ne_zero (f : ScientificForm) (h : 10 ^ 4 ≤ f.value.coefficient) : f.lead ≠ '0' := by
  intro hlead
  have hvalue : f.value.coefficient = Numeral.value f.places := by
    show Numeral.value (f.lead :: f.places) = _
    rw [hlead]
    exact value_zeros 1 f.places
  have hlt := value_lt f.isDigit_places
  rw [f.length_places] at hlt
  omega

end ScientificForm

/-! ## Numbers in this form -/

theorem exists_toList_paddedText (width n : Nat) :
    (∀ c ∈ (paddedText width n).toList, c.isDigit) ∧ width ≤ (paddedText width n).toList.length ∧
      Numeral.value (paddedText width n).toList = n := by
  rw [paddedText, String.toList_ofList]
  refine ⟨fun c hc => ?_, ?_, ?_⟩
  · obtain hc | hc := List.mem_append.1 hc
    · rw [List.eq_of_mem_replicate hc]
      rfl
    · exact isDigit_of_mem_toDigits hc
  · rw [List.length_append, List.length_replicate]
    omega
  · rw [value_zeros, value_toDigits]

/-- A number is shown in this form by the digits of the rounded number. -/
theorem exists_scientificForm (d : Decimal) :
    ∃ f : ScientificForm, (display.scientific d).toList = f.chars ∧ f.value = d.rounded 4 := by
  obtain ⟨hlt, -⟩ := d.rounded_bounds 4
  have hscientific : (display.scientific d).toList = d.signText.toList ++
      (pointText (significant 4 d).1 4).toList ++
        'E' :: (if (significant 4 d).2 < 0 then '-' else '+') ::
          (paddedText 3 (significant 4 d).2.natAbs).toList := by
    show (d.signText ++ pointText (significant 4 d).1 4 ++ "E" ++
      (if (significant 4 d).2 < 0 then "-" else "+") ++
      paddedText 3 (significant 4 d).2.natAbs).toList = _
    split <;> simp
  unfold rounded at hlt ⊢
  generalize (significant 4 d).1 = n at *
  generalize (significant 4 d).2 = e at *
  obtain ⟨whole, places, htext, hwhole, hplaces, hdigits, hdigits', hvalue⟩ :=
    exists_toList_pointText n 4
  have hcount : digitCount n ≤ 5 := (digitCount_le_iff (by decide)).2 hlt
  obtain ⟨lead, rfl⟩ : ∃ lead, whole = [lead] := List.length_eq_one_iff.1 (by omega)
  obtain ⟨hexponent, hwidth, hnatAbs⟩ := exists_toList_paddedText 3 e.natAbs
  refine ⟨⟨d.negative, lead, places, decide (e < 0), (paddedText 3 e.natAbs).toList,
    hdigits lead (by simp), hdigits', hplaces, hexponent, hwidth⟩, ?_, ?_⟩
  · rw [hscientific, htext, toList_signText]
    simp [ScientificForm.chars]
  · have he : (if decide (e < 0) = true then -(e.natAbs : Int) else e.natAbs) = e := by
      by_cases hlow : e < 0
      · rw [if_pos (decide_eq_true hlow)]
        omega
      · rw [if_neg (by simpa using hlow)]
        omega
    simp only [ScientificForm.value, hnatAbs, he]
    exact congrArg (Decimal.mk d.negative · (e - 4)) hvalue

/-! ## Displayed numbers -/

theorem negative_flat (d : Decimal) : d.flat.negative = d.negative := by
  unfold flat
  split <;> rfl

/-- A number is shown plainly in ten characters, or with an exponent. -/
theorem toDisplay_cases (d : Decimal) :
    d.toDisplay = d.toPlain ∧ d.toPlain.length ≤ 10 ∨ d.toDisplay = display.scientific d := by
  unfold toDisplay Display.render
  dsimp only
  split
  · split
    next hlength => exact .inl ⟨rfl, hlength⟩
    next => exact .inr rfl
  · exact .inr rfl

/-- What is shown of a number. Without an exponent it has ten characters at most and is the number
itself. With an exponent it has the sign of the number and stands for a number near it: the distance is
at most half a unit of the last digit, and this digit is even if it is exactly that. Its leading
digit is zero only if the number is. -/
theorem toDisplay_accurate (v : Decimal) :
    ('E' ∉ v.toDisplay.toList ∧ v.toDisplay.length ≤ 10 ∧
      ∃ w, parse? v.toDisplay.toList = some w ∧ w.negative = v.negative ∧ w.toRat = v.toRat) ∨
    ∃ (f : ScientificForm) (w : Decimal), v.toDisplay.toList = f.chars ∧
      f.negative = v.negative ∧ parse? v.toDisplay.toList = some w ∧
      |w.toRat - v.toRat| ≤ 5 * 10 ^ (v.adjusted - 5) ∧
      (|w.toRat - v.toRat| = 5 * 10 ^ (v.adjusted - 5) → digitValue f.last % 2 = 0) ∧
      (v.isZero = false → f.lead ≠ '0') := by
  obtain ⟨hdisplay, hlength⟩ | hdisplay := v.toDisplay_cases
  · left
    rw [hdisplay]
    refine ⟨fun hmem => ?_, hlength, v.flat, v.writes_toPlain.parse?_eq, v.negative_flat,
      v.toRat_flat⟩
    have hletter := v.isPositional_toPlain 'E' hmem
    simp at hletter
  · right
    obtain ⟨f, hchars, hvalue⟩ := exists_scientificForm v
    rw [hdisplay, hchars]
    refine ⟨f, v.rounded 4, rfl, ?_, ?_, v.abs_rounded_sub_le 4, fun hdistance => ?_,
      fun hzero => f.lead_ne_zero ?_⟩
    · exact congrArg Decimal.negative hvalue
    · rw [f.parse?_chars, hvalue]
    · rw [f.digitValue_last, hvalue]
      exact rounded_even (by decide) hdistance
    · rw [hvalue]
      exact (v.rounded_bounds 4).2 hzero

/-- The digits of 99999.5 million are rounded up to a power of ten. -/
example : toDisplay ⟨false, 999995, 5⟩ = "1.0000E+011" := by decide +kernel

end Decimal

end Spreadsheet
