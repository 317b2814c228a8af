import Spreadsheet.Decimal.Notation
import Spreadsheet.Proofs.Decimal.Literal

/-!
# Reading what is written

Sign, coefficient and exponent of a number can be read off its scientific form: reading it as a
numeral gives the number back, not only one of the same value. So every number in the range of
literals is the literal that it is written as.

## Main definitions

* `Decimal.Writes` — the numerals of a number.

## Main statements

* `Decimal.Writes.ofLiteral?_eq` — the number that is read from one of its numerals between blanks.
* `Decimal.writes_toScientific` — the scientific form of a number is one of its numerals.
* `Decimal.ofLiteral?_toScientific` — which scientific forms are literals.
-/

namespace Spreadsheet

/-! ## Digits -/

namespace Numeral

theorem isDigit_of_mem_toDigits {n : Nat} {c : Char} (h : c ∈ Nat.toDigits 10 n) : c.isDigit :=
  Nat.isDigit_of_mem_toDigits (by decide) (by decide) h

@[simp] theorem value_toDigits (n : Nat) : value (Nat.toDigits 10 n) = n :=
  Nat.ofDigitChars_toDigits (by decide) (by decide)

@[simp] theorem value_zeros (k : Nat) (digits : List Char) :
    value (List.replicate k '0' ++ digits) = value digits :=
  calc value (List.replicate k '0' ++ digits)
      = Nat.ofDigitChars 10 digits (Nat.ofDigitChars 10 (List.replicate k '0') 0) :=
        Nat.ofDigitChars_append 0
    _ = value digits := by rw [Nat.ofDigitChars_replicate_zero]; rfl

/-- Whether a character may stand in a numeral that is written. -/
def isWritten (c : Char) : Bool :=
  c.isDigit || c ∈ ['-', '+', '.', 'E']

theorem isBlank_of_isWritten {c : Char} (h : isWritten c) : Text.isBlank c = false := by
  simp only [isWritten, Bool.or_eq_true, decide_eq_true_eq, List.mem_cons, List.not_mem_nil,
    or_false] at h
  obtain h | rfl | rfl | rfl | rfl := h
  · exact of_isDigit (P := fun c => Text.isBlank c = false) h (by decide)
  all_goals rfl

theorem isWritten_of_isDigit {c : Char} (h : c.isDigit) : isWritten c := by
  simp [isWritten, h]

end Numeral

namespace Decimal

open Numeral

variable {d : Decimal} {s : List Char}

/-! ## Numerals of a number -/

/-- The numerals of a number: a minus sign if it is negative, the digits of its coefficient with or
without a point, and an exponent that makes up for the places after the point. -/
inductive Writes : Decimal → List Char → Prop
  | intro {negative : Bool} {whole places rest : List Char} {e : Int} (hne : whole ≠ [])
    (hwhole : ∀ c ∈ whole, c.isDigit) (hplaces : ∀ c ∈ places, c.isDigit)
    (hrest : ∀ c ∈ rest.head?, c.isDigit = false ∧ c ≠ '.') (he : exponent? rest = some e)
    (hwritten : ∀ c ∈ rest, isWritten c) :
    Writes ⟨negative, value (whole ++ places), e - places.length⟩
      ((if negative then ['-'] else []) ++
        (whole ++ ((if places = [] then [] else '.' :: places) ++ rest)))

theorem Writes.parse?_eq (h : Writes d s) : parse? s = some d := by
  obtain ⟨hne, hwhole, hplaces, hrest, he, -⟩ := h
  exact parse?_append hne hwhole hplaces hrest he

theorem Writes.isWritten (h : Writes d s) : ∀ c ∈ s, isWritten c := by
  obtain @⟨negative, whole, places, rest, e, -, hwhole, hplaces, -, -, hwritten⟩ := h
  intro c hc
  simp only [List.mem_append] at hc
  obtain hc | hc | hc | hc := hc
  · split at hc
    · obtain rfl := List.mem_singleton.1 hc
      rfl
    · cases hc
  · exact isWritten_of_isDigit (hwhole c hc)
  · split at hc
    · cases hc
    · obtain rfl | hc := List.mem_cons.1 hc
      · rfl
      · exact isWritten_of_isDigit (hplaces c hc)
  · exact hwritten c hc

theorem Writes.ne_nil (h : Writes d s) : s ≠ [] := by
  obtain ⟨hne, -, -, -, -, -⟩ := h
  simp [hne]

/-- A number is read from its numerals, whatever blanks stand around them, if it is in the range of
literals. -/
theorem Writes.ofLiteral?_eq {front back : List Char} {text : String} (h : Writes d s)
    (hblank : ∀ c ∈ front ++ back, Text.isBlank c) (htext : text.toList = front ++ s ++ back) :
    ofLiteral? text =
      if (if d.isZero then d.isRepresentable else d.isNormal) then some d else none := by
  have htrim : Text.trimChars text.toList = s := by
    rw [htext]
    exact Text.trimChars_append hblank (fun c hc => isBlank_of_isWritten (h.isWritten c hc))
      h.ne_nil
  rw [ofLiteral?, htrim, h.parse?_eq, Option.filter_some]

/-! ## The scientific form -/

theorem toList_signText (d : Decimal) :
    d.signText.toList = if d.negative then ['-'] else [] := by
  unfold signText
  split <;> rfl

theorem exponent?_digits (negative : Bool) {digits : List Char} (hne : digits ≠ [])
    (hdigits : ∀ c ∈ digits, c.isDigit) :
    exponent? ('E' :: (if negative then '-' else '+') :: digits) =
      some (if negative then -(value digits : Int) else value digits) := by
  have htake : digits.takeWhile Char.isDigit = digits := by
    simpa using takeWhile_append_of_stop (r := []) hdigits (by simp)
  have hdrop : digits.dropWhile Char.isDigit = [] := by
    simpa using dropWhile_append_of_stop (r := []) hdigits (by simp)
  cases negative <;> simp [exponent?, takeSign, takeDigits, htake, hdrop, hne]

theorem exponent?_signedText (n : Int) : exponent? ('E' :: (signedText n).toList) = some n := by
  have hexponent := fun negative => exponent?_digits negative (Nat.toDigits_ne_nil (n := n.natAbs))
    fun c => isDigit_of_mem_toDigits
  simp only [value_toDigits] at hexponent
  rw [signedText, digitText, String.toList_append, String.toList_ofList]
  by_cases hn : n < 0
  · have hvalue : -(n.natAbs : Int) = n := by omega
    rw [if_pos hn]
    exact (hexponent true).trans (congrArg some hvalue)
  · have hvalue : (n.natAbs : Int) = n := by omega
    rw [if_neg hn]
    exact (hexponent false).trans (congrArg some hvalue)

theorem isWritten_of_mem_signedText {n : Int} {c : Char} (h : c ∈ (signedText n).toList) :
    Numeral.isWritten c := by
  simp only [signedText, digitText, String.toList_append, String.toList_ofList,
    List.mem_append] at h
  obtain h | h := h
  · split at h
    all_goals
      obtain rfl := List.mem_singleton.1 h
      rfl
  · exact isWritten_of_isDigit (isDigit_of_mem_toDigits h)

/-- A text with a point has the digits of the number, with zeros at their head if they are too few.
-/
theorem exists_toList_pointText (n places : Nat) :
    ∃ whole fraction, (pointText n places).toList = whole ++ '.' :: fraction ∧
      whole.length = max 1 (digitCount n - places) ∧ fraction.length = places ∧
      (∀ c ∈ whole, c.isDigit) ∧ (∀ c ∈ fraction, c.isDigit) ∧ value (whole ++ fraction) = n := by
  let digits := Nat.toDigits 10 n
  let filled := List.replicate (places + 1 - digits.length) '0' ++ digits
  have hlength : places + 1 ≤ filled.length := by
    simp only [filled, List.length_append, List.length_replicate]
    omega
  have hdigits : ∀ c ∈ filled, c.isDigit := by
    intro c hc
    obtain hc | hc := List.mem_append.1 hc
    · rw [List.eq_of_mem_replicate hc]
      rfl
    · exact isDigit_of_mem_toDigits hc
  refine ⟨filled.take (filled.length - places), filled.drop (filled.length - places), ?_, ?_, ?_,
    fun c hc => hdigits c (List.mem_of_mem_take hc),
    fun c hc => hdigits c (List.mem_of_mem_drop hc), ?_⟩
  · exact String.toList_ofList
  · simp only [List.length_take, filled, List.length_append, List.length_replicate, digits,
      digitCount]
    omega
  · rw [List.length_drop]
    omega
  · rw [List.take_append_drop, value_zeros, value_toDigits]

/-- Digits with a point, if any of them are places, and an exponent for the places are a numeral. -/
theorem writes_append (d : Decimal) (places : Nat) (rest : List Char) {e : Int}
    (hexponent : d.exponent = e - places) (hrest : ∀ c ∈ rest.head?, c.isDigit = false ∧ c ≠ '.')
    (he : exponent? rest = some e) (hwritten : ∀ c ∈ rest, Numeral.isWritten c) :
    Writes d (d.signText.toList ++
      ((if places = 0 then digitText d.coefficient else pointText d.coefficient places).toList ++
        rest)) := by
  obtain ⟨negative, coefficient, exponent⟩ := d
  obtain rfl : exponent = e - places := hexponent
  rw [toList_signText]
  by_cases hplaces : places = 0
  · subst hplaces
    have h : Writes ⟨negative, value (Nat.toDigits 10 coefficient ++ []),
        e - ([] : List Char).length⟩ _ :=
      .intro Nat.toDigits_ne_nil (fun c => isDigit_of_mem_toDigits) (by simp) hrest he hwritten
    simpa [digitText] using h
  · obtain ⟨whole, fraction, htext, hcount, hlength, hwhole, hfraction, hvalue⟩ :=
      exists_toList_pointText coefficient places
    have hne : whole ≠ [] := by
      rw [← List.length_pos_iff]
      omega
    have hfraction' : fraction ≠ [] := by
      rw [← List.length_pos_iff]
      omega
    have h : Writes ⟨negative, value (whole ++ fraction), e - fraction.length⟩ _ :=
      .intro hne hwhole hfraction hrest he hwritten
    rw [hvalue, hlength] at h
    simpa [hplaces, htext, hfraction'] using h

/-- The scientific form of a number is one of its numerals. -/
theorem writes_toScientific (d : Decimal) : Writes d d.toScientific.toList := by
  unfold toScientific
  by_cases hzero : d.exponent = 0
  · have h := writes_append d 0 [] hzero (by simp) rfl (by simp)
    simpa [hzero] using h
  by_cases hpoint : d.exponent < 0 ∧ -6 ≤ d.adjusted
  · have h := writes_append d (-d.exponent).toNat [] (e := 0) (by omega) (by simp) rfl (by simp)
    have hplaces : (-d.exponent).toNat ≠ 0 := by omega
    simpa [hzero, hpoint, hplaces] using h
  · have hdigits : 0 < digitCount d.coefficient := Nat.length_toDigits_pos
    have h := writes_append d (digitCount d.coefficient - 1) ('E' :: (signedText d.adjusted).toList)
      (by unfold adjusted; omega) (by simp) (exponent?_signedText _)
      (List.forall_mem_cons.2 ⟨rfl, fun c => isWritten_of_mem_signedText⟩)
    simpa [hzero, hpoint] using h

/-- A number is read from its scientific form as the same decimal, if it is in the range of
literals. -/
theorem ofLiteral?_toScientific (h : if d.isZero then d.isRepresentable else d.isNormal) :
    ofLiteral? d.toScientific = some d := by
  have htext : d.toScientific.toList = [] ++ d.toScientific.toList ++ [] := by simp
  rw [d.writes_toScientific.ofLiteral?_eq (by simp) htext]
  exact if_pos (by simpa using h)

end Decimal

end Spreadsheet
