import Spreadsheet.Proofs.Decimal.Numeral
import Spreadsheet.Proofs.Text.Letter

/-!
# What literals consist of

A literal is a numeral between blanks, and a numeral has a sign, digits, a point with places and an
exponent, each of which may be missing.

## Main definitions

* `Numeral.IsSign`, `Numeral.IsPoint`, `Numeral.IsExponent` — the parts of a numeral.

## Main statements

* `Text.exists_blanks`, `Text.trimChars_append` — texts between blanks.
* `Numeral.exists_parts` — the parts of a numeral.
* `Decimal.exists_numeral_of_ofLiteral?` — the numeral of a literal.
-/

namespace Spreadsheet

variable {s front back : List Char} {c : Char} {d : Decimal}

/-! ## Blanks -/

theorem Text.exists_blanks (s : List Char) :
    ∃ front back, s = front ++ trimChars s ++ back ∧ ∀ c ∈ front ++ back, isBlank c := by
  let rest := s.dropWhile isBlank
  have hfront : s = s.takeWhile isBlank ++ rest := List.takeWhile_append_dropWhile.symm
  have hback : rest = trimChars s ++ (rest.reverse.takeWhile isBlank).reverse := by
    rw [trimChars, ← List.reverse_append, List.takeWhile_append_dropWhile, List.reverse_reverse]
  refine ⟨s.takeWhile isBlank, (rest.reverse.takeWhile isBlank).reverse, ?_, fun c hc => ?_⟩
  · rw [List.append_assoc, ← hback, ← hfront]
  · obtain hc | hc := List.mem_append.1 hc
    · exact List.all_eq_true.1 List.all_takeWhile c hc
    · exact List.all_eq_true.1 List.all_takeWhile c (List.mem_reverse.1 hc)

theorem Text.trimChars_append (hblank : ∀ c ∈ front ++ back, isBlank c)
    (hs : ∀ c ∈ s, isBlank c = false) (hne : s ≠ []) : trimChars (front ++ s ++ back) = s := by
  obtain ⟨hfront, hback⟩ := List.forall_mem_append.1 hblank
  have hhead : ∀ c ∈ (s ++ back).head?, isBlank c = false := by
    obtain ⟨x, xs, rfl⟩ := List.exists_cons_of_ne_nil hne
    intro c hc
    obtain rfl : x = c := by simpa using hc
    exact hs x List.mem_cons_self
  have hlast : ∀ c ∈ s.reverse.head?, isBlank c = false := fun c hc =>
    hs c (List.mem_reverse.1 (List.mem_of_mem_head? hc))
  have hback' : ∀ c ∈ back.reverse, isBlank c := fun c hc => hback c (List.mem_reverse.1 hc)
  rw [trimChars, List.append_assoc, dropWhile_append_of_stop hfront hhead, List.reverse_append,
    dropWhile_append_of_stop hback' hlast, List.reverse_reverse]

theorem Text.isBlank_toLower (c : Char) : isBlank c.toLower = isBlank c := by
  rw [Bool.eq_iff_iff]
  simp only [isBlank, toNat_toLower, Bool.or_eq_true, Bool.and_eq_true, decide_eq_true_eq,
    beq_iff_eq]
  split <;> omega

theorem Text.isBlank_of_isAlpha (h : c.isAlpha) : isBlank c = false := by
  have hcode := isAlpha_iff.1 h
  rw [Bool.eq_false_iff]
  simp only [isBlank, ne_eq, Bool.or_eq_true, Bool.and_eq_true, decide_eq_true_eq, beq_iff_eq]
  omega

theorem Text.isBlank_of_isDigit (h : c.isDigit) : isBlank c = false :=
  of_isDigit (P := fun c => isBlank c = false) h (by decide)

/-! ## Numerals -/

namespace Numeral

/-- A sign, or none. -/
def IsSign (s : List Char) : Prop :=
  s = [] ∨ s = ['+'] ∨ s = ['-']

/-- A point and places, of which there may be none, or nothing at all. -/
def IsPoint (s : List Char) : Prop :=
  s = [] ∨ ∃ places, s = '.' :: places ∧ ∀ c ∈ places, c.isDigit

/-- An exponent, or none. -/
def IsExponent (s : List Char) : Prop :=
  s = [] ∨ ∃ c sign digits, s = c :: (sign ++ digits) ∧ (c = 'e' ∨ c = 'E') ∧ IsSign sign ∧
    ∀ c ∈ digits, c.isDigit

theorem exists_sign (s : List Char) : ∃ sign, IsSign sign ∧ s = sign ++ (takeSign s).2 := by
  unfold takeSign
  split
  · exact ⟨['-'], .inr (.inr rfl), rfl⟩
  · exact ⟨['+'], .inr (.inl rfl), rfl⟩
  · exact ⟨[], .inl rfl, rfl⟩

theorem exists_coefficient (s : List Char) :
    ∃ point, IsPoint point ∧
      s = (takeCoefficient s).1 ++ (point ++ (takeCoefficient s).2.2) ∧
      ∀ c ∈ (takeCoefficient s).1, c.isDigit := by
  have hwhole : ∀ c ∈ s.takeWhile Char.isDigit, c.isDigit :=
    List.all_eq_true.1 List.all_takeWhile
  have hs : s = s.takeWhile Char.isDigit ++ s.dropWhile Char.isDigit :=
    List.takeWhile_append_dropWhile.symm
  unfold takeCoefficient takeDigits
  dsimp only
  split
  next rest hrest =>
    refine ⟨'.' :: rest.takeWhile Char.isDigit,
      .inr ⟨_, rfl, List.all_eq_true.1 List.all_takeWhile⟩, ?_, hwhole⟩
    rw [List.cons_append, List.takeWhile_append_dropWhile, ← hrest]
    exact hs
  next => exact ⟨[], .inl rfl, hs, hwhole⟩

theorem isExponent_of_exponent? {e : Int} (h : exponent? s = some e) : IsExponent s := by
  obtain - | ⟨c, s⟩ := s
  · exact .inl rfl
  · by_cases hc : c = 'e' ∨ c = 'E'
    · obtain ⟨sign, hsign, hs⟩ := exists_sign s
      rw [exponent?, if_pos hc] at h
      dsimp only [takeDigits] at h
      split at h
      · cases h
      next hdigits =>
        have hrest : (takeSign s).2.dropWhile Char.isDigit = [] := by
          simpa using (not_or.1 hdigits).2
        have hall := List.takeWhile_append_dropWhile (p := Char.isDigit) (l := (takeSign s).2)
        rw [hrest, List.append_nil] at hall
        refine .inr ⟨c, sign, (takeSign s).2.takeWhile Char.isDigit, ?_, hc, hsign,
          List.all_eq_true.1 List.all_takeWhile⟩
        rw [hall, ← hs]
    · rw [exponent?, if_neg hc] at h
      cases h

/-- The parts of a numeral. -/
theorem exists_parts (h : parse? s = some d) :
    ∃ sign whole point exponent, s = sign ++ (whole ++ (point ++ exponent)) ∧ IsSign sign ∧
      (∀ c ∈ whole, c.isDigit) ∧ IsPoint point ∧ IsExponent exponent := by
  obtain ⟨sign, hsign, hs⟩ := exists_sign s
  obtain ⟨point, hpoint, hcoefficient, hwhole⟩ := exists_coefficient (takeSign s).2
  unfold parse? at h
  dsimp only at h
  split at h
  · cases h
  · obtain ⟨e, he, -⟩ := Option.map_eq_some_iff.1 h
    exact ⟨sign, _, point, _, by rw [← hcoefficient, ← hs], hsign, hwhole, hpoint,
      isExponent_of_exponent? he⟩

/-- Whether a character may stand in a numeral. -/
def IsPart (c : Char) : Prop :=
  c.isDigit ∨ c ∈ ['+', '-', '.', 'e', 'E']

theorem IsSign.isPart (h : IsSign s) (hc : c ∈ s) : IsPart c := by
  obtain rfl | rfl | rfl := h
  · cases hc
  · exact .inr (by simp_all)
  · exact .inr (by simp_all)

theorem isPart_of_parse? (h : parse? s = some d) : ∀ c ∈ s, IsPart c := by
  obtain ⟨sign, whole, point, exponent, rfl, hsign, hwhole, hpoint, hexponent⟩ := exists_parts h
  simp only [List.forall_mem_append]
  refine ⟨fun c => hsign.isPart, fun c hc => .inl (hwhole c hc), ?_, ?_⟩
  · obtain rfl | ⟨places, rfl, hplaces⟩ := hpoint
    · simp
    · exact List.forall_mem_cons.2 ⟨.inr (by simp), fun c hc => .inl (hplaces c hc)⟩
  · obtain rfl | ⟨e, sign, digits, rfl, he, hsign, hdigits⟩ := hexponent
    · simp
    · refine List.forall_mem_cons.2 ⟨.inr ?_, List.forall_mem_append.2
        ⟨fun c => hsign.isPart, fun c hc => .inl (hdigits c hc)⟩⟩
      obtain rfl | rfl := he <;> simp

theorem IsPart.isBlank_eq_false (h : IsPart c) : Text.isBlank c = false := by
  obtain h | h := h
  · exact Text.isBlank_of_isDigit h
  · simp only [List.mem_cons, List.not_mem_nil, or_false] at h
    obtain rfl | rfl | rfl | rfl | rfl := h <;> decide

end Numeral

/-! ## Literals -/

theorem Decimal.raiseZero_of_isRepresentable (h : d.isZero → d.isRepresentable) :
    d.raiseZero = d := by
  unfold raiseZero
  split
  next hzero =>
    have hleast : leastExponent ≤ d.exponent := by
      have hrange := h hzero
      rw [isRepresentable, Bool.and_eq_true, decide_eq_true_eq] at hrange
      exact hrange.1
    rw [Int.max_eq_right hleast]
  next => rfl

/-- A literal is a numeral between blanks. -/
theorem Decimal.exists_numeral_of_ofLiteral? {text : String} (h : ofLiteral? text = some d) :
    ∃ front s back, text.toList = front ++ s ++ back ∧ (∀ c ∈ front ++ back, Text.isBlank c) ∧
      Numeral.parse? s = some d := by
  obtain ⟨hparse, -⟩ := Option.filter_eq_some_iff.1 h
  obtain ⟨front, back, htext, hblank⟩ := Text.exists_blanks text.toList
  exact ⟨front, _, back, htext, hblank, hparse⟩

end Spreadsheet
