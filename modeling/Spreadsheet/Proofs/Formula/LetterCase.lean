import Spreadsheet.Proofs.Decimal.Literal
import Spreadsheet.Proofs.Formula.LookupOrder

/-!
# The case of letters

The case of letters of ASCII makes no difference to an expression. Words, cells and the mark of an
exponent are read in either case; a token shows its word in lower case and its cell in upper case,
so nothing of the spelling is left in the tokens. Only the message about stray characters shows
letters as they were written. Letters of other scripts are never taken for letters of ASCII, although
some have one as their other case.

## Main definitions

* `lowered` — a text in lower case.

## Main statements

* `lexeme?_lowered`, `tokenize_lowered` — the tokens of a text in lower case.
* `Decimal.ofLiteral?_lowered` — its value as a literal.
* `evaluate_letterCase` — expressions that differ in the case of letters.
-/

namespace Spreadsheet

variable {c d : Char} {text text' formula formula' expression expression' : String}

/-! ## Texts in lower case -/

/-- A text with its letters of ASCII in lower case. -/
def lowered (s : List Char) : List Char :=
  s.map Char.toLower

theorem lowered_cons (c : Char) (s : List Char) : lowered (c :: s) = c.toLower :: lowered s :=
  rfl

theorem takeWhile_lowered {p : Char → Bool} (hp : ∀ c, p c.toLower = p c) (s : List Char) :
    (lowered s).takeWhile p = lowered (s.takeWhile p) := by
  have hcomp : p ∘ Char.toLower = p := funext hp
  rw [lowered, List.takeWhile_map, hcomp, lowered]

theorem dropWhile_lowered {p : Char → Bool} (hp : ∀ c, p c.toLower = p c) (s : List Char) :
    (lowered s).dropWhile p = lowered (s.dropWhile p) := by
  have hcomp : p ∘ Char.toLower = p := funext hp
  rw [lowered, List.dropWhile_map, hcomp, lowered]

theorem takeWhile_isDigit_lowered (s : List Char) :
    (lowered s).takeWhile Char.isDigit = s.takeWhile Char.isDigit := by
  have hdigits : ∀ c ∈ s.takeWhile Char.isDigit, c.isAlpha = false := fun c hc =>
    isAlpha_of_isDigit (List.all_eq_true.1 List.all_takeWhile c hc)
  rw [takeWhile_lowered isDigit_toLower, lowered, map_toLower_eq_self hdigits]

theorem dropWhile_isDigit_lowered (s : List Char) :
    (lowered s).dropWhile Char.isDigit = lowered (s.dropWhile Char.isDigit) :=
  dropWhile_lowered isDigit_toLower s

theorem contains_lowered (hd : d.isAlpha = false) (s : List Char) :
    (lowered s).contains d = s.contains d := by
  simp [lowered, toLower_eq_iff hd]

/-! ## Lexemes -/

theorem wordLexeme?_lowered (s : List Char) : wordLexeme? (lowered s) = wordLexeme? s := by
  have hword : ((lowered s).take 3).map lowerChar = (s.take 3).map lowerChar := by
    rw [lowered, ← List.map_take, List.map_map]
    exact List.map_congr_left fun c _ => by
      simp only [Function.comp_apply, lowerChar_eq_toLower, toLower_toLower]
  rw [wordLexeme?, hword, wordLexeme?]

theorem symbolLexeme?_lowered (s : List Char) : symbolLexeme? (lowered s) = symbolLexeme? s := by
  obtain - | ⟨c, s⟩ := s
  · rfl
  by_cases hc : c.isAlpha
  · have hnone : ∀ d s, d.isAlpha → symbolLexeme? (d :: s) = none := by
      intro d s hd
      refine symbolLexeme?_eq_none fun x hx hmem => ?_
      obtain rfl : d = x := by simpa using hx
      have hsymbol : ['<', '>', '(', ')', '+', '-', '*', '/', '='].all (!·.isAlpha) := by decide
      have hnot := List.all_eq_true.1 hsymbol d hmem
      simp [hd] at hnot
    rw [lowered_cons, hnone _ _ hc, hnone _ _ (isAlpha_toLower c ▸ hc)]
  · rw [lowered_cons, toLower_eq_self (by simpa using hc)]
    obtain - | ⟨d, s⟩ := s
    · rfl
    have hgreater : d.toLower = '>' ↔ d = '>' := toLower_eq_iff rfl
    have hequals : d.toLower = '=' ↔ d = '=' := toLower_eq_iff rfl
    rw [lowered_cons]
    unfold symbolLexeme?
    grind

theorem cellLexeme?_lowered (s : List Char) : cellLexeme? (lowered s) = cellLexeme? s := by
  have hletter : ∀ c : Char, isLetter c.toLower = isLetter c := by
    intro c
    rw [isLetter_eq_isAlpha, isLetter_eq_isAlpha, isAlpha_toLower]
  have hupper : ∀ letters digits : List Char, (lowered letters ++ digits).flatMap Text.upperChar =
      (letters ++ digits).flatMap Text.upperChar := by
    intro letters digits
    simp [lowered, List.flatMap_map, Text.upperChar_toLower]
  unfold cellLexeme?
  rw [takeWhile_lowered hletter, dropWhile_lowered hletter, takeWhile_isDigit_lowered]
  dsimp only
  rw [hupper]
  simp [lowered]

theorem fraction_lowered (s : List Char) : fraction (lowered s) = fraction s := by
  obtain - | ⟨c, s⟩ := s
  · rfl
  have hpoint : c.toLower = '.' ↔ c = '.' := toLower_eq_iff rfl
  have hdigits := takeWhile_isDigit_lowered s
  rw [lowered_cons]
  unfold fraction
  grind

theorem numberLexeme?_lowered (s : List Char) : numberLexeme? (lowered s) = numberLexeme? s := by
  unfold numberLexeme?
  rw [takeWhile_isDigit_lowered, dropWhile_isDigit_lowered, fraction_lowered]

/-- The case of letters makes no difference to what stands at the head of a text. -/
theorem lexeme?_lowered (s : List Char) : lexeme? (lowered s) = lexeme? s := by
  rw [lexeme?, wordLexeme?_lowered, symbolLexeme?_lowered, cellLexeme?_lowered,
    numberLexeme?_lowered, lexeme?]

/-! ## Tokens -/

/-- A piece with its stray letters in lower case. -/
def Piece.lowered : Piece → Piece
  | token t => token t
  | stray c => stray c.toLower

theorem piecesFrom_lowered (position covered : Nat) (s : List Char) :
    piecesFrom position covered (Spreadsheet.lowered s) =
      (piecesFrom position covered s).map Piece.lowered := by
  induction s generalizing position covered with
  | nil => rfl
  | cons c s ih =>
    cases covered with
    | succ covered => exact ih (position + 1) covered
    | zero =>
      have hlexeme := lexeme?_lowered (c :: s)
      rw [lowered_cons] at hlexeme ⊢
      rw [piecesFrom, hlexeme, piecesFrom]
      split
      · rw [ih]
        rfl
      · rw [ih]
        rfl

theorem pieces_lowered (h : formula'.toList = lowered formula.toList) :
    pieces formula' = (pieces formula).map Piece.lowered := by
  have hseparator : ∀ c : Char, isSeparator c.toLower = isSeparator c := by
    intro c
    have hspace : ∀ d : Char, d.isAlpha = false → (c.toLower == d) = (c == d) := fun d hd => by
      rw [Bool.eq_iff_iff, beq_iff_eq, beq_iff_eq, toLower_eq_iff hd]
    simp [isSeparator, hspace]
  have hformula : withoutSeparators formula' = lowered (withoutSeparators formula) := by
    rw [withoutSeparators, h, lowered, List.filter_map, withoutSeparators, lowered]
    simp [Function.comp_def, hseparator]
  rw [pieces, hformula, piecesFrom_lowered, pieces]

/-- The case of letters makes no difference to tokens, or to the kind of error if there are none. -/
theorem tokenize_lowered (h : formula'.toList = lowered formula.toList) :
    (tokenize formula').mapError Error.category = (tokenize formula).mapError Error.category := by
  have htokens : (pieces formula').filterMap Piece.token? =
      (pieces formula).filterMap Piece.token? := by
    rw [pieces_lowered h, List.filterMap_map]
    exact List.filterMap_congr fun p _ => by cases p <;> rfl
  have hstrays : (pieces formula').filterMap Piece.stray? =
      lowered ((pieces formula).filterMap Piece.stray?) := by
    rw [pieces_lowered h, List.filterMap_map, lowered, List.map_filterMap]
    exact List.filterMap_congr fun p _ => by cases p <;> rfl
  unfold tokenize
  rw [h, contains_lowered rfl]
  split
  · rfl
  dsimp only
  rw [htokens, hstrays, lowered, List.isEmpty_map]
  split <;> rfl

theorem postorder_lowered (h : formula'.toList = lowered formula.toList) :
    (postorder formula').mapError Error.category = (postorder formula).mapError Error.category := by
  unfold postorder
  obtain htokens | ⟨e', e, he', he, hcategory⟩ := eq_or_error_of_mapError_eq (tokenize_lowered h)
  · rw [htokens]
  · rw [he', he]
    exact congrArg Except.error hcategory

/-! ## Literals -/

namespace Numeral

theorem takeSign_lowered (s : List Char) :
    takeSign (lowered s) = ((takeSign s).1, lowered (takeSign s).2) := by
  obtain - | ⟨c, s⟩ := s
  · rfl
  have hminus : c.toLower = '-' ↔ c = '-' := toLower_eq_iff rfl
  have hplus : c.toLower = '+' ↔ c = '+' := toLower_eq_iff rfl
  rw [lowered_cons]
  unfold takeSign
  grind [lowered_cons]

theorem takeCoefficient_lowered (s : List Char) :
    takeCoefficient (lowered s) =
      ((takeCoefficient s).1, (takeCoefficient s).2.1, lowered (takeCoefficient s).2.2) := by
  simp only [takeCoefficient, takeDigits, takeWhile_isDigit_lowered, dropWhile_isDigit_lowered]
  generalize s.dropWhile Char.isDigit = rest
  obtain - | ⟨c, rest⟩ := rest
  · rfl
  have hpoint : c.toLower = '.' ↔ c = '.' := toLower_eq_iff rfl
  have htake := takeWhile_isDigit_lowered rest
  have hdrop := dropWhile_isDigit_lowered rest
  rw [lowered_cons]
  grind [lowered_cons]

theorem exponent?_lowered (s : List Char) : exponent? (lowered s) = exponent? s := by
  obtain - | ⟨c, s⟩ := s
  · rfl
  have hmark : c.toLower = 'e' ∨ c.toLower = 'E' ↔ c = 'e' ∨ c = 'E' := by
    rw [← Char.toNat_inj, ← Char.toNat_inj, ← Char.toNat_inj, ← Char.toNat_inj, toNat_toLower]
    simp
    grind
  rw [lowered_cons, exponent?, exponent?, takeSign_lowered]
  simp only [hmark, takeDigits, takeWhile_isDigit_lowered, dropWhile_isDigit_lowered]
  simp [lowered]

theorem parse?_lowered (s : List Char) : parse? (lowered s) = parse? s := by
  simp only [parse?, takeSign_lowered, takeCoefficient_lowered, exponent?_lowered]

end Numeral

theorem Text.trimChars_lowered (s : List Char) : trimChars (lowered s) = lowered (trimChars s) := by
  have hreverse : ∀ s, (lowered s).reverse = lowered s.reverse := fun s => List.map_reverse.symm
  rw [trimChars, dropWhile_lowered isBlank_toLower, hreverse, dropWhile_lowered isBlank_toLower,
    hreverse, trimChars]

theorem Decimal.ofLiteral?_lowered (h : text'.toList = lowered text.toList) :
    ofLiteral? text' = ofLiteral? text := by
  rw [ofLiteral?, h, Text.trimChars_lowered, Numeral.parse?_lowered, ofLiteral?]

/-! ## Expressions -/

theorem Text.isBlankText_lowered (h : text'.toList = lowered text.toList) :
    isBlankText text' = isBlankText text := by
  rw [isBlankText, h, lowered, List.all_map, isBlankText]
  exact congrArg _ (funext isBlank_toLower)

theorem toList_withoutEquals_lowered (h : text'.toList = lowered text.toList) :
    (withoutEquals text').toList = lowered (withoutEquals text).toList := by
  unfold withoutEquals
  rw [h]
  cases hs : text.toList with
  | nil => exact h
  | cons c s =>
    have hequals : c.toLower = '=' ↔ c = '=' := toLower_eq_iff rfl
    rw [lowered_cons]
    grind [lowered_cons, String.toList_ofList]

theorem evaluate_lowered (h : expression'.toList = lowered expression.toList)
    (resolve : String → Traced Value) :
    (evaluate resolve expression').lookups = (evaluate resolve expression).lookups ∧
      (evaluate resolve expression').outcome.mapError Error.category =
        (evaluate resolve expression).outcome.mapError Error.category := by
  have hpostorder := postorder_lowered (toList_withoutEquals_lowered h)
  unfold evaluate
  rw [Text.isBlankText_lowered h, h, contains_lowered rfl, Decimal.ofLiteral?_lowered h]
  split
  · exact ⟨rfl, rfl⟩
  split
  · exact ⟨rfl, rfl⟩
  split
  · exact ⟨rfl, rfl⟩
  obtain hout | ⟨e', e, he', he, hcategory⟩ := eq_or_error_of_mapError_eq hpostorder
  · rw [hout]
    exact ⟨rfl, rfl⟩
  · rw [he', he]
    exact ⟨rfl, congrArg Except.error hcategory⟩

/-- Two expressions that differ only in the case of letters of ASCII look up the same cells in the
same order. They have the same value, or fail with errors of the same category. -/
theorem evaluate_letterCase
    (h : expression.toList.map Char.toLower = expression'.toList.map Char.toLower)
    (resolve : String → Traced Value) :
    (evaluate resolve expression).lookups = (evaluate resolve expression').lookups ∧
      (evaluate resolve expression).outcome.mapError Error.category =
        (evaluate resolve expression').outcome.mapError Error.category := by
  let common := String.ofList (lowered expression.toList)
  have hleft : common.toList = lowered expression.toList := String.toList_ofList
  have hright : common.toList = lowered expression'.toList := hleft.trans h
  obtain ⟨hlookups, houtcome⟩ := evaluate_lowered hleft resolve
  obtain ⟨hlookups', houtcome'⟩ := evaluate_lowered hright resolve
  exact ⟨hlookups.symm.trans hlookups', houtcome.symm.trans houtcome'⟩

/-- A function, an operator and two cells, each in both cases. -/
theorem evaluate_letterCase_call :
    let resolve := Traced.recording fun _ => .ok (.decimal (.ofNat 2))
    "=INC(A1) mod b2".toList.map Char.toLower = "=inc(a1) Mod B2".toList.map Char.toLower ∧
      (evaluate resolve "=INC(A1) mod b2").lookups =
        (evaluate resolve "=inc(a1) Mod B2").lookups ∧
      (evaluate resolve "=INC(A1) mod b2").outcome.mapError Error.category =
        (evaluate resolve "=inc(a1) Mod B2").outcome.mapError Error.category :=
  ⟨by decide, evaluate_letterCase (by decide) _⟩

end Spreadsheet
