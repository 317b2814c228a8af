import Spreadsheet.Proofs.Decimal.Display
import Spreadsheet.Proofs.Decimal.Magnitude

/-!
# The length of plain forms

A plain form has a character for each place from the leading digit to the point, and those behind
the point besides. So it is longer than the distance of the leading digit from the point, and a
display need not build the plain form of a number whose leading digit is far off. This does not hold
for zeros with a positive exponent: their plain form has a single digit, but a display writes those
with a great exponent in full.

## Main statements

* `Decimal.length_toPlain` — the length of the plain form.
* `Decimal.natAbs_adjusted_lt_length_toPlain` — the leading digit against the length.
* `Decimal.Display.render_eq_toPlain_iff`, `Decimal.toDisplay_eq_toPlain_iff` — which numbers are
  shown by their plain forms.
-/

namespace Spreadsheet.Decimal

variable {d : Decimal} {s : Display}

/-! ## Lengths -/

@[simp] theorem length_pointText (n places : Nat) :
    (pointText n places).length = max 1 (digitCount n - places) + 1 + places := by
  obtain ⟨whole, fraction, htext, hwhole, hfraction, -⟩ := exists_toList_pointText n places
  rw [← String.length_toList, htext, List.length_append, List.length_cons, hwhole, hfraction]
  omega

/-- The characters of the plain form: a sign, the digits before the point, the point and the places
behind it. -/
theorem length_toPlain (d : Decimal) :
    d.toPlain.length = (if d.negative then 1 else 0) +
      if d.exponent < 0 then
        max 1 (digitCount d.coefficient - (-d.exponent).toNat) + 1 + (-d.exponent).toNat
      else if d.isZero then 1
      else digitCount d.coefficient + d.exponent.toNat := by
  have hsign : d.signText.length = if d.negative then 1 else 0 := by
    unfold signText
    split <;> rfl
  unfold toPlain
  rw [String.length_append, hsign]
  congr 1
  split
  · rw [length_pointText]
  split
  · rfl
  · simp [digitText, zeros, digitCount]

/-- The plain form is longer than the distance of the leading digit from the point, unless the
number is a zero with a positive exponent. -/
theorem natAbs_adjusted_lt_length_toPlain (h : d.isZero → d.exponent ≤ 0) :
    d.adjusted.natAbs < d.toPlain.length := by
  have hcount := digitCount_pos d.coefficient
  have hlength := d.length_toPlain
  by_cases hexponent : d.exponent < 0
  · -- the places behind the point reach down to the last digit, so past the leading one
    rw [if_pos hexponent] at hlength
    unfold adjusted
    omega
  rw [if_neg hexponent] at hlength
  by_cases hzero : d.isZero
  · have hle := h hzero
    rw [if_pos hzero] at hlength
    rw [adjusted_of_isZero hzero]
    omega
  · rw [if_neg hzero] at hlength
    unfold adjusted
    omega

/-- A zero with an exponent that is not negative has one digit. -/
theorem length_toPlain_of_isZero (hzero : d.isZero) (hexponent : 0 ≤ d.exponent) :
    d.toPlain.length ≤ 2 := by
  rw [length_toPlain, if_neg (not_lt.2 hexponent), if_pos hzero]
  split <;> decide

/-- Short plain forms have their leading digits close to the point, except for those of zeros with a
great exponent. -/
theorem natAbs_adjusted_lt {width : Nat} (hshort : d.toPlain.length ≤ width)
    (hexcept : ¬(d.isZero ∧ width ≤ d.exponent)) : d.adjusted.natAbs < width := by
  by_cases hzero : d.isZero ∧ 0 < d.exponent
  · have hlt : d.exponent < width := not_le.1 fun hwide => hexcept ⟨hzero.1, hwide⟩
    rw [adjusted_of_isZero hzero.1]
    omega
  · refine (natAbs_adjusted_lt_length_toPlain fun h => ?_).trans_le hshort
    exact not_lt.1 fun hpos => hzero ⟨h, hpos⟩

/-! ## Displays -/

namespace Display

theorem mem_toList_scientific (s : Display) (d : Decimal) : 'E' ∈ (s.scientific d).toList := by
  simp [scientific]

theorem scientific_ne_toPlain (s : Display) (d : Decimal) : s.scientific d ≠ d.toPlain := by
  intro heq
  have hletter := d.isPositional_toPlain 'E' (heq ▸ mem_toList_scientific s d)
  simp at hletter

theorem render_eq_toPlain_iff_natAbs (s : Display) (d : Decimal) :
    s.render d = d.toPlain ↔ d.adjusted.natAbs < s.width ∧ d.toPlain.length ≤ s.width := by
  unfold render
  dsimp only
  split
  next hnear =>
    split
    next hshort => exact iff_of_true rfl ⟨hnear, hshort⟩
    next hlong => exact iff_of_false (s.scientific_ne_toPlain d) fun h => hlong h.2
  next hfar => exact iff_of_false (s.scientific_ne_toPlain d) fun h => hfar h.1

/-- A display shows a number by its plain form if and only if that is short enough, except for zeros
whose exponent is the width or greater. -/
theorem render_eq_toPlain_iff (s : Display) (d : Decimal) :
    s.render d = d.toPlain ↔ d.toPlain.length ≤ s.width ∧ ¬(d.isZero ∧ s.width ≤ d.exponent) := by
  rw [render_eq_toPlain_iff_natAbs]
  refine ⟨fun ⟨hnear, hshort⟩ => ⟨hshort, fun ⟨hzero, hwide⟩ => ?_⟩,
    fun ⟨hshort, hexcept⟩ => ⟨natAbs_adjusted_lt hshort hexcept, hshort⟩⟩
  rw [adjusted_of_isZero hzero] at hnear
  omega

end Display

/-- What the grid shows against the plain form. It shows the plain form if that has ten characters
at most, except for zeros with an exponent of ten or more. With the leading digit ten or more places
from the point, these are the only numbers whose plain form is as short as that. -/
theorem toDisplay_eq_toPlain_iff (v : Decimal) :
    (v.toDisplay = v.toPlain ↔ v.toPlain.length ≤ 10 ∧ ¬(v.isZero ∧ 10 ≤ v.exponent)) ∧
    (10 ≤ |v.adjusted| → (10 < v.toPlain.length ↔ ¬(v.isZero ∧ 10 ≤ v.exponent))) := by
  refine ⟨display.render_eq_toPlain_iff v, fun hfar => ⟨fun hlong hzero => ?_, fun hexcept => ?_⟩⟩
  · have hshort := length_toPlain_of_isZero hzero.1 (by omega)
    omega
  · by_contra hshort
    have hnear := natAbs_adjusted_lt (not_lt.1 hshort) hexcept
    rw [Int.abs_eq_natAbs] at hfar
    omega

/-- A zero whose plain form has one character is not shown by it. -/
theorem toDisplay_shifted_zero :
    toPlain ⟨false, 0, 10⟩ = "0" ∧ toDisplay ⟨false, 0, 10⟩ = "0.0000E+014" ∧
      ¬(toDisplay ⟨false, 0, 10⟩ = toPlain ⟨false, 0, 10⟩ ↔
        (toPlain ⟨false, 0, 10⟩).length ≤ 10) ∧
      ¬(10 ≤ |adjusted ⟨false, 0, 10⟩| → 10 < (toPlain ⟨false, 0, 10⟩).length) := by
  decide +kernel

end Spreadsheet.Decimal
