import Spreadsheet.Proofs.Decimal.Rational

/-!
# Numbers and their texts

A number that is written in its scientific form is read back as it was, with its sign, its digits and
its exponent, also from between blanks. From its plain form a number of the same value is read. This is
so for the numbers in the range of literals, in which the leading digit counts: not the exponent of the
number, and not how many digits it has. Other numbers are no literals in the form that they are written
in.

## Main definitions

* `Decimal.IsReadable` — the numbers that are read from their texts.

## Main statements

* `Decimal.inRange_of_isReadable` — these are in the range of literals.
* `Decimal.ofLiteral?_roundTrip` — what is read from the texts of a number.
-/

namespace Spreadsheet.Decimal

variable {d : Decimal} {front back : String}

/-- The numbers whose leading digit stands within 999999 places of the point, and the zeros whose
exponent is not far out. -/
def IsReadable (d : Decimal) : Prop :=
  if d.isZero then -(10 ^ 17) ≤ d.exponent ∧ d.exponent ≤ 10 ^ 17
  else -999999 ≤ d.adjusted ∧ d.adjusted ≤ 999999

instance (d : Decimal) : Decidable d.IsReadable :=
  inferInstanceAs (Decidable (if d.isZero then _ else _))

theorem isNormal_iff : d.isNormal ↔ -999999 ≤ d.adjusted ∧ d.adjusted ≤ 999999 := by
  rw [isNormal, Bool.and_eq_true, decide_eq_true_eq, decide_eq_true_eq]
  rfl

theorem inRange_of_isReadable (h : d.IsReadable) :
    if d.isZero then d.isRepresentable else d.isNormal := by
  unfold IsReadable at h
  cases hzero : d.isZero with
  | true =>
    rw [hzero, if_pos rfl] at h
    have hleast : leastExponent = -1999999999999999997 := rfl
    have hgreatest : greatestExponent = 999999999999999999 := rfl
    simp only [isRepresentable, hzero, if_true, Bool.and_eq_true, decide_eq_true_eq]
    omega
  | false =>
    rw [hzero, if_neg Bool.false_ne_true] at h
    rw [if_neg Bool.false_ne_true]
    exact isNormal_iff.2 h

/-- The scientific form of a number between blanks. -/
theorem ofLiteral?_append_toScientific (d : Decimal) (hfront : Text.isBlankText front)
    (hback : Text.isBlankText back) :
    ofLiteral? (front ++ d.toScientific ++ back) =
      if (if d.isZero then d.isRepresentable else d.isNormal) then some d else none := by
  have hblank : ∀ c ∈ front.toList ++ back.toList, Text.isBlank c :=
    List.forall_mem_append.2 ⟨List.all_eq_true.1 hfront, List.all_eq_true.1 hback⟩
  exact d.writes_toScientific.ofLiteral?_eq hblank (by simp [String.toList_append])

/-- Between blanks the scientific form of a number is read as the number itself, with the same sign,
coefficient and exponent, and its plain form as a number of the same value, if the leading digit is in
range or the number is zero. The scientific form of any other number is no literal. -/
theorem ofLiteral?_roundTrip (d : Decimal) (front back : String)
    (hfront : Text.isBlankText front) (hback : Text.isBlankText back) :
    (d.IsReadable →
      ofLiteral? (front ++ d.toScientific ++ back) = some d ∧
      ∃ e, ofLiteral? d.toPlain = some e ∧ e.toRat = d.toRat) ∧
    (d.isZero = false → ¬ (-999999 ≤ d.adjusted ∧ d.adjusted ≤ 999999) →
      ofLiteral? (front ++ d.toScientific ++ back) = none) := by
  rw [ofLiteral?_append_toScientific d hfront hback]
  refine ⟨fun h => ?_, fun hzero hrange => ?_⟩
  · have hinRange := inRange_of_isReadable h
    exact ⟨if_pos (by simpa using hinRange), d.flat, ofLiteral?_toPlain_of_inRange hinRange,
      d.toRat_flat⟩
  · rw [hzero, if_neg Bool.false_ne_true]
    exact if_neg (mt isNormal_iff.1 hrange)

/-- Numbers between an em space and a separator: a small one, a zero far out, and two whose exponents are
in range, while the leading digit of only one of them is. -/
theorem ofLiteral?_roundTrip_shapes :
    ofLiteral? ("\u2003" ++ "-1.200E-27" ++ "\x1f") = some ⟨true, 1200, -30⟩ ∧
    ofLiteral? ("\u2003" ++ "0E-100000000000000000" ++ "\x1f") =
      some ⟨false, 0, -100000000000000000⟩ ∧
    ofLiteral? ("\u2003" ++ "9.0E+999999" ++ "\x1f") = some ⟨false, 90, 999998⟩ ∧
    ofLiteral? ("\u2003" ++ "9.0E+1000000" ++ "\x1f") = none := by
  have hread := fun d => ofLiteral?_roundTrip d "\u2003" "\x1f" (by decide) (by decide)
  have hsmall : toScientific ⟨true, 1200, -30⟩ = "-1.200E-27" := by decide +kernel
  have hzero : toScientific ⟨false, 0, -100000000000000000⟩ = "0E-100000000000000000" := by
    decide +kernel
  have hinside : toScientific ⟨false, 90, 999998⟩ = "9.0E+999999" := by decide +kernel
  have houtside : toScientific ⟨false, 90, 999999⟩ = "9.0E+1000000" := by decide +kernel
  rw [← hsmall, ← hzero, ← hinside, ← houtside]
  refine ⟨((hread _).1 ?_).1, ((hread _).1 ?_).1, ((hread _).1 ?_).1, (hread _).2 ?_ ?_⟩
  · decide +kernel
  · decide +kernel
  · decide +kernel
  · decide +kernel
  · decide +kernel

end Spreadsheet.Decimal
