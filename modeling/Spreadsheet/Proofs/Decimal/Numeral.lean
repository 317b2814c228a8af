import Spreadsheet.Decimal.Numeral

/-!
# Reading digits

What the functions on numerals do with digits of ASCII that are followed by something else.

## Main statements

* `takeWhile_append_of_stop`, `dropWhile_append_of_stop` — a longest head ends where it must.
* `Numeral.plain_eq_self` — digits and points are plain.
* `Numeral.parse?_append` — the value of a sign, digits with places and an exponent.
* `Decimal.ofLiteral?_of_equals` — what begins with an equals sign is no literal.
-/

namespace Spreadsheet

/-! ## Longest heads -/

theorem takeWhile_append_of_stop {α : Type} {p : α → Bool} {l r : List α} (hl : ∀ a ∈ l, p a)
    (hr : ∀ a ∈ r.head?, p a = false) : (l ++ r).takeWhile p = l := by
  rw [List.takeWhile_append_of_pos hl]
  cases r with
  | nil => simp
  | cons a r => simp [hr a rfl]

theorem dropWhile_append_of_stop {α : Type} {p : α → Bool} {l r : List α} (hl : ∀ a ∈ l, p a)
    (hr : ∀ a ∈ r.head?, p a = false) : (l ++ r).dropWhile p = r := by
  rw [List.dropWhile_append_of_pos hl]
  cases r with
  | nil => simp
  | cons a r => simp [hr a rfl]

/-! ## Digits -/

/-- What holds of the ten digits holds of every digit. -/
theorem of_isDigit {P : Char → Prop} {c : Char} (h : c.isDigit)
    (hall : ∀ n < 10, P (Char.ofNat (0x30 + n))) : P c := by
  have hc : 0x30 ≤ c.toNat ∧ c.toNat ≤ 0x39 := by
    simpa [Char.isDigit, UInt32.le_iff_toNat_le] using h
  have hP := hall (c.toNat - 0x30) (by omega)
  rwa [Nat.add_sub_cancel' hc.1, Char.ofNat_toNat] at hP

namespace Numeral

theorem digitValue_lt {c : Char} (h : c.isDigit) : digitValue c < 10 :=
  of_isDigit (P := fun c => digitValue c < 10) h (by decide)

theorem value_append_singleton (digits : List Char) (c : Char) :
    value (digits ++ [c]) = 10 * value digits + digitValue c := by
  simp [value]

/-- Whether a character may stand in the coefficient of a numeral. -/
def isPlain (c : Char) : Bool :=
  c.isDigit || c == '.'

theorem of_isPlain {P : Char → Prop} {c : Char} (h : isPlain c)
    (hall : ∀ n < 10, P (Char.ofNat (0x30 + n))) (hpoint : P '.') : P c := by
  simp only [isPlain, Bool.or_eq_true, beq_iff_eq] at h
  obtain h | rfl := h
  · exact of_isDigit h hall
  · exact hpoint

theorem trimChars_eq_self {s : List Char} (h : ∀ c ∈ s, Text.isBlank c = false) :
    Text.trimChars s = s := by
  have hdrop : ∀ l : List Char, (∀ c ∈ l, Text.isBlank c = false) →
      l.dropWhile Text.isBlank = l := by
    intro l hl
    cases l with
    | nil => rfl
    | cons c l => simp [hl c (by simp)]
  rw [Text.trimChars, hdrop s h, hdrop s.reverse (by simpa using h), List.reverse_reverse]

theorem trimChars_cons (c : Char) (hc : Text.isBlank c = false) (s : List Char) :
    ∃ rest, Text.trimChars (c :: s) = c :: rest := by
  unfold Text.trimChars
  rw [List.dropWhile_cons_of_neg (by simp [hc]), List.reverse_cons, List.dropWhile_append]
  split
  · exact ⟨[], by simp [hc]⟩
  · exact ⟨_, by rw [List.reverse_append]; rfl⟩

theorem plain_eq_self {s : List Char} (h : ∀ c ∈ s, isPlain c) : plain (String.ofList s) = s := by
  have hplain : ∀ c ∈ s, Text.isBlank c = false ∧ c ≠ '_' ∧ plainDigit c = c := fun c hc =>
    of_isPlain (P := fun c => Text.isBlank c = false ∧ c ≠ '_' ∧ plainDigit c = c) (h c hc)
      (by decide +kernel) (by decide +kernel)
  have hfilter : s.filter (· ≠ '_') = s :=
    List.filter_eq_self.2 fun c hc => by simpa using (hplain c hc).2.1
  rw [plain, String.toList_ofList, trimChars_eq_self fun c hc => (hplain c hc).1, hfilter]
  simpa using List.map_congr_left (g := id) fun c hc => (hplain c hc).2.2

theorem takeSign_of_isDigit {c : Char} (hc : c.isDigit) (s : List Char) :
    takeSign (c :: s) = (false, c :: s) := by
  have hminus : c ≠ '-' := by rintro rfl; simp at hc
  have hplus : c ≠ '+' := by rintro rfl; simp at hc
  unfold takeSign
  split <;> simp_all

/-- Digits, a point with more digits if there are any, and what follows them. -/
theorem takeCoefficient_digits {whole places rest : List Char} (hwhole : ∀ c ∈ whole, c.isDigit)
    (hplaces : ∀ c ∈ places, c.isDigit) (hrest : ∀ c ∈ rest.head?, c.isDigit = false ∧ c ≠ '.') :
    takeCoefficient (whole ++ ((if places = [] then [] else '.' :: places) ++ rest)) =
      (whole, places, rest) := by
  have hstop : ∀ c ∈ rest.head?, c.isDigit = false := fun c hc => (hrest c hc).1
  by_cases hp : places = []
  · subst hp
    simp only [if_pos, List.nil_append, takeCoefficient, takeDigits]
    rw [takeWhile_append_of_stop hwhole hstop, dropWhile_append_of_stop hwhole hstop]
    split
    next s => exact absurd rfl (hrest '.' rfl).2
    next => rfl
  · have hpoint : ∀ c ∈ ('.' :: (places ++ rest)).head?, c.isDigit = false := by simp
    simp only [if_neg hp, List.cons_append, takeCoefficient, takeDigits]
    rw [takeWhile_append_of_stop hwhole hpoint, dropWhile_append_of_stop hwhole hpoint]
    simp only
    rw [takeWhile_append_of_stop hplaces hstop, dropWhile_append_of_stop hplaces hstop]

/-- A minus sign if there is one, digits, a point with more digits if there are any, and an exponent
are a numeral. -/
theorem parse?_append {negative : Bool} {whole places rest : List Char} {e : Int} (hne : whole ≠ [])
    (hwhole : ∀ c ∈ whole, c.isDigit) (hplaces : ∀ c ∈ places, c.isDigit)
    (hrest : ∀ c ∈ rest.head?, c.isDigit = false ∧ c ≠ '.') (he : exponent? rest = some e) :
    parse? ((if negative then ['-'] else []) ++
        (whole ++ ((if places = [] then [] else '.' :: places) ++ rest))) =
      some ⟨negative, value (whole ++ places), e - places.length⟩ := by
  have hsign : takeSign ((if negative then ['-'] else []) ++
      (whole ++ ((if places = [] then [] else '.' :: places) ++ rest))) =
      (negative, whole ++ ((if places = [] then [] else '.' :: places) ++ rest)) := by
    cases negative with
    | true => rfl
    | false =>
      obtain ⟨c, whole, rfl⟩ := List.exists_cons_of_ne_nil hne
      exact takeSign_of_isDigit (hwhole c List.mem_cons_self) _
  rw [parse?, hsign]
  simp only [takeCoefficient_digits hwhole hplaces hrest]
  rw [if_neg (by simp [hne]), he]
  rfl

/-- Digits, and a point with more digits if there are any, are a numeral without an exponent. -/
theorem parse?_digits {whole places : List Char} (hne : whole ≠ [])
    (hwhole : ∀ c ∈ whole, c.isDigit) (hplaces : ∀ c ∈ places, c.isDigit) :
    parse? (whole ++ if places = [] then [] else '.' :: places) =
      some ⟨false, value (whole ++ places), -places.length⟩ := by
  have h : parse? ((if false then ['-'] else []) ++
      (whole ++ ((if places = [] then [] else '.' :: places) ++ []))) = _ :=
    parse?_append hne hwhole hplaces (by simp) rfl
  simpa using h

end Numeral

/-- No literal begins with an equals sign. -/
theorem Decimal.ofLiteral?_of_equals {text : String} {body : List Char}
    (h : text.toList = '=' :: body) : ofLiteral? text = none := by
  obtain ⟨rest, hrest⟩ := Numeral.trimChars_cons '=' (by decide) body
  have hparse : Numeral.parse? ('=' :: rest) = none := by
    simp [Numeral.parse?, Numeral.takeSign, Numeral.takeCoefficient, Numeral.takeDigits]
  rw [ofLiteral?, h, hrest, hparse]
  rfl

end Spreadsheet
