import Spreadsheet.Formula.Lexer
import Spreadsheet.Proofs.Cell.Name
import Spreadsheet.Proofs.Formula.Grammar
import Spreadsheet.Proofs.Formula.Machine

/-!
# What stands at the head of a text

The words of formulas, in any case, are found at the head of every text that begins with them. A
number or a cell ends there if no digit and no point follows, and an operator of one character if
no second character of an operator does.

## Main statements

* `lexeme?_of_digits` — digits at the head.
* `lexeme?_number`, `lexeme?_cell` — operands at the head.
* `lexeme?_function`, `lexeme?_operator` — functions and operators at the head.
-/

namespace Spreadsheet

variable {cs ds rest s : List Char}

/-! ## Letters -/

@[simp] theorem lowerChar_eq_toLower (c : Char) : lowerChar c = c.toLower := by
  rw [← Char.toNat_inj, toNat_toLower, lowerChar]
  split
  next h =>
    have hn : 0x41 ≤ c.toNat ∧ c.toNat ≤ 0x5a := h
    rw [if_pos hn, toNat_ofNat (by omega)]
  next h => exact (if_neg h).symm

@[simp] theorem isLetter_eq_isAlpha (c : Char) : isLetter c = c.isAlpha := by
  have hle : (isLetter c = true) ↔ 0x61 ≤ c.toLower.toNat ∧ c.toLower.toNat ≤ 0x7a := by
    rw [isLetter, lowerChar_eq_toLower, Bool.and_eq_true, decide_eq_true_eq, decide_eq_true_eq]
    rfl
  rw [Bool.eq_iff_iff, hle, isAlpha_iff, toNat_toLower]
  grind

/-! ## Lexemes -/

/-- Whether a number or cell ends before `rest`. -/
def EndsOperand (rest : List Char) : Prop :=
  ∀ c ∈ rest.head?, c.isDigit = false ∧ c ≠ '.'

/-- Whether an operator ends before `rest`. -/
def EndsOperator (rest : List Char) : Prop :=
  ∀ c ∈ rest.head?, c ≠ '>' ∧ c ≠ '='

theorem wordLexeme?_eq_none (h : ∀ c ∈ s.head?, c.toLower ∉ ['m', 'd', 'i']) :
    wordLexeme? s = none := by
  obtain - | ⟨c, s⟩ := s
  · rfl
  · have hc : c.toLower ∉ ['m', 'd', 'i'] := h c rfl
    simp only [List.mem_cons, List.not_mem_nil, or_false, not_or] at hc
    simp [wordLexeme?, wordKind?, hc]

theorem symbolLexeme?_eq_none
    (h : ∀ c ∈ s.head?, c ∉ ['<', '>', '(', ')', '+', '-', '*', '/', '=']) :
    symbolLexeme? s = none := by
  obtain - | ⟨c, s⟩ := s
  · rfl
  · have hc : c ∉ ['<', '>', '(', ')', '+', '-', '*', '/', '='] := h c rfl
    simp only [List.mem_cons, List.not_mem_nil, or_false, not_or] at hc
    unfold symbolLexeme?
    split <;> simp_all

theorem cellLexeme?_eq_none (h : ∀ c ∈ s.head?, c.isAlpha = false) : cellLexeme? s = none := by
  obtain - | ⟨c, s⟩ := s
  · rfl
  · simp [cellLexeme?, h c rfl]

theorem fraction_append {places : List Char} (hplaces : ∀ c ∈ places, c.isDigit)
    (hrest : EndsOperand rest) :
    fraction ((if places = [] then [] else '.' :: places) ++ rest) =
      if places = [] then [] else '.' :: places := by
  split
  · obtain - | ⟨c, rest⟩ := rest
    · rfl
    · have hc : c ≠ '.' := (hrest c rfl).2
      unfold fraction
      split <;> simp_all
  · have htake : (places ++ rest).takeWhile Char.isDigit = places :=
      takeWhile_append_of_stop hplaces fun c hc => (hrest c hc).1
    simp_all [fraction]

/-- Digits at the head are a number, with the places that follow them if there are any. -/
theorem lexeme?_of_digits {whole : List Char} (hne : whole ≠ []) (hwhole : ∀ c ∈ whole, c.isDigit)
    (hrest : ∀ c ∈ rest.head?, c.isDigit = false) :
    lexeme? (whole ++ rest) =
      some ⟨.number, whole ++ fraction rest, (whole ++ fraction rest).length⟩ := by
  obtain ⟨c, tail, rfl⟩ := List.exists_cons_of_ne_nil hne
  have hc : c.isDigit := hwhole c List.mem_cons_self
  have hhead : ∀ d ∈ (c :: tail ++ rest).head?, d = c := by simp
  have hword : wordLexeme? (c :: tail ++ rest) = none := wordLexeme?_eq_none fun d hd => by
    rw [hhead d hd]
    exact of_isDigit (P := fun c => c.toLower ∉ ['m', 'd', 'i']) hc (by decide)
  have hsymbol : symbolLexeme? (c :: tail ++ rest) = none := symbolLexeme?_eq_none fun d hd => by
    rw [hhead d hd]
    exact of_isDigit (P := fun c => c ∉ ['<', '>', '(', ')', '+', '-', '*', '/', '=']) hc
      (by decide)
  have hcell : cellLexeme? (c :: tail ++ rest) = none := cellLexeme?_eq_none fun d hd => by
    rw [hhead d hd]
    exact isAlpha_of_isDigit hc
  have hnumber : numberLexeme? (c :: tail ++ rest) =
      some ⟨.number, c :: tail ++ fraction rest, (c :: tail ++ fraction rest).length⟩ := by
    unfold numberLexeme?
    rw [takeWhile_append_of_stop hwhole hrest, dropWhile_append_of_stop hwhole hrest]
    rfl
  rw [lexeme?, hword, hsymbol, hcell, hnumber]
  rfl

theorem lexeme?_number (n : NumberWord) (hrest : EndsOperand rest) :
    lexeme? (n.chars ++ rest) = some ⟨.number, n.chars, n.chars.length⟩ := by
  have hstop : ∀ d ∈ ((if n.places = [] then [] else '.' :: n.places) ++ rest).head?,
      d.isDigit = false := by
    split
    · exact fun d hd => (hrest d hd).1
    · simp
  rw [NumberWord.chars, List.append_assoc, lexeme?_of_digits n.whole_ne_nil n.isDigit_whole hstop,
    fraction_append n.isDigit_places hrest]

theorem mem_reservedWords_of_wordKind? {w : List Char} (h : wordKind? w ≠ none) :
    ∃ r ∈ reservedWords, w = r.toList := by
  unfold wordKind? at h
  split at h
  next hw =>
    obtain rfl | rfl := hw
    · exact ⟨"mod", by decide, rfl⟩
    · exact ⟨"div", by decide, rfl⟩
  next =>
    split at h
    next hw =>
      obtain rfl | rfl := hw
      · exact ⟨"inc", by decide, rfl⟩
      · exact ⟨"dec", by decide, rfl⟩
    next => exact absurd rfl h

theorem exists_wordKind?_of_reserved {r : String} (hr : r ∈ reservedWords) :
    ∃ kind, wordKind? r.toList = some kind ∧ (kind = .operator ∨ kind = .function) ∧
      r.toList.length = 3 := by
  simp only [reservedWords, List.mem_cons, List.not_mem_nil, or_false] at hr
  obtain rfl | rfl | rfl | rfl := hr <;> exact ⟨_, rfl, by simp, rfl⟩

theorem isAlpha_of_mem_reserved {r : String} (hr : r ∈ reservedWords) : ∀ c ∈ r.toList, c.isAlpha := by
  have halpha : ∀ r ∈ reservedWords, ∀ c ∈ r.toList, c.isAlpha := by
    simp [reservedWords]
  exact halpha r hr

/-- No word stands at the head of a cell: a word that reached beyond a short cell would hold the
digits of the cell. -/
theorem wordLexeme?_cell (c : CellWord) : wordLexeme? (c.chars ++ rest) = none := by
  by_contra hne
  have hkind : wordKind? (((c.chars ++ rest).take 3).map lowerChar) ≠ none := by
    intro hnone
    exact hne (by rw [wordLexeme?, hnone, Option.map_none])
  obtain ⟨r, hr, hw⟩ := mem_reservedWords_of_wordKind? hkind
  rw [show lowerChar = Char.toLower from funext lowerChar_eq_toLower] at hw
  obtain hshort | hlong := Nat.le_total c.chars.length 3
  · obtain ⟨d, hd⟩ := List.exists_mem_of_ne_nil c.digits c.digits_ne_nil
    have htake : d ∈ (c.chars ++ rest).take 3 := by
      rw [List.take_append, List.take_of_length_le hshort]
      exact List.mem_append_left _ (List.mem_append_right _ hd)
    have hmem : d.toLower ∈ r.toList := hw ▸ List.mem_map_of_mem htake
    have hdigit : d.toLower.isAlpha = false :=
      (isAlpha_toLower d).trans (isAlpha_of_isDigit (c.isDigit_digits d hd))
    simp [isAlpha_of_mem_reserved hr _ hmem] at hdigit
  · refine c.not_reserved r hr ⟨((c.letters ++ c.digits).drop 3).map Char.toLower, ?_⟩
    rw [← hw, List.take_append_of_le_length hlong, ← List.map_append]
    exact congrArg _ (List.take_append_drop 3 _)

theorem toNat_lt_of_mem_chars {c : CellWord} {d : Char} (h : d ∈ c.chars) : d.toNat < 0x80 := by
  obtain h | h := List.mem_append.1 h
  · have halpha := isAlpha_iff.1 (c.isAlpha_letters d h)
    omega
  · have hdigit := isDigit_iff.1 (c.isDigit_digits d h)
    omega

theorem lexeme?_cell (c : CellWord) (hrest : EndsOperand rest) :
    lexeme? (c.chars ++ rest) = some ⟨.cell, c.chars.map Char.toUpper, c.chars.length⟩ := by
  obtain ⟨x, tail, hletters⟩ := List.exists_cons_of_ne_nil c.letters_ne_nil
  obtain ⟨d, digits, hdigits⟩ := List.exists_cons_of_ne_nil c.digits_ne_nil
  have hsymbol : symbolLexeme? (c.chars ++ rest) = none := symbolLexeme?_eq_none fun y hy => by
    obtain rfl : y = x := by simpa [CellWord.chars, hletters] using hy.symm
    have halpha : y.isAlpha := c.isAlpha_letters y (by simp [hletters])
    rintro hmem
    simp only [List.mem_cons, List.not_mem_nil, or_false] at hmem
    obtain rfl | rfl | rfl | rfl | rfl | rfl | rfl | rfl | rfl := hmem <;> simp at halpha
  have hstop : ∀ y ∈ (c.digits ++ rest).head?, y.isAlpha = false := by
    intro y hy
    obtain rfl : y = d := by simpa [hdigits] using hy.symm
    exact isAlpha_of_isDigit (c.isDigit_digits y (by simp [hdigits]))
  have hisLetter : isLetter = Char.isAlpha := funext isLetter_eq_isAlpha
  have hcell : cellLexeme? (c.chars ++ rest) =
      some ⟨.cell, c.chars.map Char.toUpper, c.chars.length⟩ := by
    rw [← flatMap_upperChar fun _ => toNat_lt_of_mem_chars]
    unfold cellLexeme? CellWord.chars
    rw [hisLetter, List.append_assoc, takeWhile_append_of_stop c.isAlpha_letters hstop,
      dropWhile_append_of_stop c.isAlpha_letters hstop,
      takeWhile_append_of_stop c.isDigit_digits fun y hy => (hrest y hy).1]
    simp [c.letters_ne_nil, c.digits_ne_nil]
  rw [lexeme?, wordLexeme?_cell, hsymbol, hcell]
  rfl

theorem lexeme?_word {kind : Token.Kind} {w : List Char} (hkind : wordKind? w = some kind)
    (hlen : w.length = 3) (hcs : cs.map Char.toLower = w) :
    lexeme? (cs ++ rest) = some ⟨kind, w, cs.length⟩ := by
  have hcs3 : cs.length = 3 := by
    have hmap := congrArg List.length hcs
    rwa [List.length_map, hlen] at hmap
  have hword : wordLexeme? (cs ++ rest) = some ⟨kind, w, cs.length⟩ := by
    rw [wordLexeme?, List.take_left' hcs3, show lowerChar = Char.toLower from
      funext lowerChar_eq_toLower, hcs, hkind, hcs3]
    rfl
  rw [lexeme?, hword]
  rfl

theorem lexeme?_function (f : UnaryFunction) (hcs : cs.map Char.toLower = f.symbol.toList) :
    lexeme? (cs ++ rest) = some ⟨.function, f.symbol.toList, cs.length⟩ := by
  cases f <;> exact lexeme?_word (by decide) (by decide) hcs

theorem lexeme?_of_symbolLexeme? {l : Lexeme} (hs : ∀ c ∈ s.head?, c.toLower ∉ ['m', 'd', 'i'])
    (h : symbolLexeme? s = some l) : lexeme? s = some l := by
  rw [lexeme?, wordLexeme?_eq_none hs, h]
  rfl

theorem symbolLexeme?_single {c : Char} (hc : c ∈ ['+', '-', '*', '/', '=', '<', '>'])
    (hrest : EndsOperator rest) : symbolLexeme? (c :: rest) = some ⟨.operator, [c], 1⟩ := by
  unfold symbolLexeme?
  split
  next h => exact absurd rfl (hrest '>' (by simp_all)).1
  next h => exact absurd rfl (hrest '=' (by simp_all)).2
  next h => exact absurd rfl (hrest '=' (by simp_all)).2
  next h => simp_all
  next h => simp_all
  next h =>
    obtain ⟨rfl, rfl⟩ := List.cons.inj h
    exact if_pos (List.contains_iff_mem.2 hc)
  next h => cases h

theorem lexeme?_single {c : Char} (hc : c ∈ ['+', '-', '*', '/', '=', '<', '>'])
    (hrest : EndsOperator rest) (hcs : cs.map Char.toLower = [c]) :
    lexeme? (cs ++ rest) = some ⟨.operator, [c], cs.length⟩ := by
  have halpha : ∀ c ∈ ['+', '-', '*', '/', '=', '<', '>'],
      c.isAlpha = false ∧ c.toLower ∉ ['m', 'd', 'i'] := by simp
  obtain ⟨d, rfl, hd⟩ := List.map_eq_singleton_iff.1 hcs
  obtain rfl := eq_of_toLower_eq (halpha c hc).1 hd
  refine lexeme?_of_symbolLexeme? (fun x hx => ?_) (symbolLexeme?_single hc hrest)
  obtain rfl : x = d := by simpa using hx.symm
  exact (halpha x hc).2

theorem lexeme?_pair {c d : Char} (hcd : [c, d] ∈ [['<', '>'], ['<', '='], ['>', '=']])
    (hcs : cs.map Char.toLower = [c, d]) :
    lexeme? (cs ++ rest) = some ⟨.operator, [c, d], cs.length⟩ := by
  have halpha : ∀ l ∈ [['<', '>'], ['<', '='], ['>', '=']], ∀ c ∈ l, c.isAlpha = false := by simp
  obtain rfl := eq_of_map_toLower_eq (halpha _ hcd) hcs
  simp only [List.mem_cons, List.cons.injEq, List.not_mem_nil, and_true, or_false] at hcd
  obtain ⟨rfl, rfl⟩ | ⟨rfl, rfl⟩ | ⟨rfl, rfl⟩ := hcd <;>
    exact lexeme?_of_symbolLexeme? (by simp) rfl

theorem lexeme?_operator (op : BinaryOperator) (hcs : cs.map Char.toLower = op.symbol.toList)
    (hrest : EndsOperator rest) :
    lexeme? (cs ++ rest) = some ⟨.operator, op.symbol.toList, cs.length⟩ := by
  cases op with
  | mod | quotient => exact lexeme?_word (by decide) (by decide) hcs
  | ne | le | ge => exact lexeme?_pair (by decide) hcs
  | add | sub | mul | div | eq | lt | gt => exact lexeme?_single (by decide) hrest hcs

theorem lexeme?_openParen : lexeme? ('(' :: rest) = some ⟨.openParen, ['('], 1⟩ :=
  lexeme?_of_symbolLexeme? (by simp) rfl

theorem lexeme?_closeParen : lexeme? (')' :: rest) = some ⟨.closeParen, [')'], 1⟩ :=
  lexeme?_of_symbolLexeme? (by simp) rfl

end Spreadsheet
