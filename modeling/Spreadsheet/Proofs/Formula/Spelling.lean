import Spreadsheet.Proofs.Formula.Lexer

/-!
# How words are spelled

Whatever stands at the head of a text, it is the spelling of a word: a number or a cell as the grammar
has them, an operator or a function in any case, or a parenthesis. So a formula without stray characters
is the spellings of its tokens one after the other, and each of them is what stands at the head of the
text that is left.

## Main definitions

* `Lexeme.word` — the word that a lexeme stands for.
* `Spells` — how words are spelled.
* `Scans` — texts that are cut into words.

## Main statements

* `exists_spelling_of_lexeme?` — the lexeme at the head of a text is the spelling of a word.
* `scans_of_tokenize` — a formula with tokens is cut into their words.
* `exists_spelling_of_tokenize` — every token of a formula is the spelling of a word.
-/

namespace Spreadsheet

variable {s cs : List Char} {formula : String} {ts : List Token} {l : Lexeme} {w : Word}
  {ws : List Word}

/-- The word that a lexeme stands for. -/
def Lexeme.word (l : Lexeme) : Word :=
  ⟨l.kind, String.ofList l.text⟩

/-! ## Spellings -/

/-- How words are spelled: operators and functions in any case, and cells with letters of any case. -/
inductive Spells : Word → List Char → Prop
  | number (n : NumberWord) : Spells ⟨.number, n.text⟩ n.chars
  | cell (c : CellWord) : Spells ⟨.cell, c.name⟩ c.chars
  | operator (op : BinaryOperator) {cs : List Char} (h : cs.map Char.toLower = op.symbol.toList) :
    Spells ⟨.operator, op.symbol⟩ cs
  | function (f : UnaryFunction) {cs : List Char} (h : cs.map Char.toLower = f.symbol.toList) :
    Spells ⟨.function, f.symbol⟩ cs
  | openParen : Spells ⟨.openParen, "("⟩ ['(']
  | closeParen : Spells ⟨.closeParen, ")"⟩ [')']

theorem Spells.ne_nil (h : Spells w cs) : cs ≠ [] := by
  rintro rfl
  generalize hcs : ([] : List Char) = cs at h
  cases h with
  | number n => exact n.whole_ne_nil (List.append_eq_nil_iff.1 hcs.symm).1
  | cell c => exact c.letters_ne_nil (List.append_eq_nil_iff.1 hcs.symm).1
  | operator op h => subst hcs; cases op <;> cases h
  | function f h => subst hcs; cases f <;> cases h
  | openParen | closeParen => cases hcs

/-! ## Lexemes -/

/-- Whether a lexeme is the spelling of a word at the head of a text. -/
def Lexeme.Heads (l : Lexeme) (s : List Char) : Prop :=
  ∃ cs rest, s = cs ++ rest ∧ l.length = cs.length ∧ Spells l.word cs

theorem heads_of_wordLexeme? (h : wordLexeme? s = some l) : l.Heads s := by
  obtain ⟨kind, hkind, rfl⟩ := Option.map_eq_some_iff.1 h
  refine ⟨s.take 3, s.drop 3, (List.take_append_drop 3 s).symm, ?_, ?_⟩
  · obtain ⟨r, hr, hword⟩ := mem_reservedWords_of_wordKind? (hkind ▸ Option.some_ne_none kind)
    obtain ⟨-, -, -, hlen⟩ := exists_wordKind?_of_reserved hr
    have hlength := congrArg List.length hword
    rw [List.length_map, hlen] at hlength
    exact hlength.symm
  · show Spells ⟨kind, String.ofList ((s.take 3).map lowerChar)⟩ (s.take 3)
    have hlower : (s.take 3).map Char.toLower = (s.take 3).map lowerChar :=
      List.map_congr_left fun c _ => (lowerChar_eq_toLower c).symm
    generalize (s.take 3).map lowerChar = word at hkind hlower
    unfold wordKind? at hkind
    split at hkind
    next hword =>
      obtain rfl := Option.some.inj hkind
      obtain rfl | rfl := hword
      · exact .operator .mod hlower
      · exact .operator .quotient hlower
    next =>
      split at hkind
      next hword =>
        obtain rfl := Option.some.inj hkind
        obtain rfl | rfl := hword
        · exact .function .inc hlower
        · exact .function .dec hlower
      next => cases hkind

theorem spells_single {c : Char} (h : c ∈ ['+', '-', '*', '/', '=', '<', '>']) :
    Spells ⟨.operator, String.ofList [c]⟩ [c] := by
  simp only [List.mem_cons, List.not_mem_nil, or_false] at h
  obtain rfl | rfl | rfl | rfl | rfl | rfl | rfl := h
  · exact .operator .add rfl
  · exact .operator .sub rfl
  · exact .operator .mul rfl
  · exact .operator .div rfl
  · exact .operator .eq rfl
  · exact .operator .lt rfl
  · exact .operator .gt rfl

theorem heads_of_symbolLexeme? (h : symbolLexeme? s = some l) : l.Heads s := by
  unfold symbolLexeme? at h
  split at h
  case h_6 c rest _ _ _ _ _ =>
    split at h
    next hmem =>
      obtain rfl := Option.some.inj h
      exact ⟨[c], rest, rfl, rfl, spells_single (List.contains_iff_mem.1 hmem)⟩
    next => cases h
  case h_7 => cases h
  case h_1 rest =>
    obtain rfl := Option.some.inj h
    exact ⟨['<', '>'], rest, rfl, rfl, .operator .ne rfl⟩
  case h_2 rest =>
    obtain rfl := Option.some.inj h
    exact ⟨['<', '='], rest, rfl, rfl, .operator .le rfl⟩
  case h_3 rest =>
    obtain rfl := Option.some.inj h
    exact ⟨['>', '='], rest, rfl, rfl, .operator .ge rfl⟩
  case h_4 rest =>
    obtain rfl := Option.some.inj h
    exact ⟨['('], rest, rfl, rfl, .openParen⟩
  case h_5 rest =>
    obtain rfl := Option.some.inj h
    exact ⟨[')'], rest, rfl, rfl, .closeParen⟩

/-- Only words that are read before cells could be mistaken for one. -/
theorem not_reserved_of_wordLexeme? (h : wordLexeme? s = none) (hcs : cs <+: s) :
    ∀ r ∈ reservedWords, ¬ r.toList <+: cs.map Char.toLower := by
  intro r hr hprefix
  obtain ⟨kind, hkind, -, hlen⟩ := exists_wordKind?_of_reserved hr
  have htake : (s.take 3).map Char.toLower = r.toList := by
    have hs : r.toList <+: s.map Char.toLower := hprefix.trans (hcs.map _)
    rw [List.map_take, ← hlen]
    exact (List.prefix_iff_eq_take.1 hs).symm
  rw [wordLexeme?, show lowerChar = Char.toLower from funext lowerChar_eq_toLower, htake,
    Option.map_eq_none_iff, hkind] at h
  cases h

theorem heads_of_cellLexeme? (hword : wordLexeme? s = none) (h : cellLexeme? s = some l) :
    l.Heads s := by
  unfold cellLexeme? at h
  rw [show isLetter = Char.isAlpha from funext isLetter_eq_isAlpha] at h
  dsimp only at h
  split at h
  next => cases h
  next hparts =>
    obtain rfl := Option.some.inj h
    simp only [Bool.or_eq_true, List.isEmpty_iff, not_or] at hparts
    have hs : s = s.takeWhile Char.isAlpha ++ (s.dropWhile Char.isAlpha).takeWhile Char.isDigit ++
        (s.dropWhile Char.isAlpha).dropWhile Char.isDigit := by
      rw [List.append_assoc, List.takeWhile_append_dropWhile, List.takeWhile_append_dropWhile]
    let c : CellWord := ⟨s.takeWhile Char.isAlpha, (s.dropWhile Char.isAlpha).takeWhile Char.isDigit,
      hparts.1, hparts.2, List.all_eq_true.1 List.all_takeWhile,
      List.all_eq_true.1 List.all_takeWhile, not_reserved_of_wordLexeme? hword ⟨_, hs.symm⟩⟩
    have hname : c.chars.flatMap Text.upperChar = c.chars.map Char.toUpper :=
      flatMap_upperChar fun _ => toNat_lt_of_mem_chars
    refine ⟨c.chars, _, hs, List.length_append.symm, ?_⟩
    have hcell := Spells.cell c
    rw [CellWord.name, ← hname] at hcell
    exact hcell

theorem fraction_eq (s : List Char) :
    ∃ places rest : List Char, (∀ c ∈ places, c.isDigit) ∧
      fraction s = (if places = [] then [] else '.' :: places) ∧ s = fraction s ++ rest := by
  unfold fraction
  split
  next s =>
    refine ⟨s.takeWhile Char.isDigit, ?_⟩
    by_cases hnil : s.takeWhile Char.isDigit = []
    · exact ⟨'.' :: s, by simp [hnil], by simp [hnil], by simp [hnil]⟩
    · refine ⟨s.dropWhile Char.isDigit, List.all_eq_true.1 List.all_takeWhile, ?_, ?_⟩
      · simp [hnil]
      · simp [hnil, List.takeWhile_append_dropWhile]
  next => exact ⟨[], s, by simp⟩

theorem heads_of_numberLexeme? (h : numberLexeme? s = some l) : l.Heads s := by
  unfold numberLexeme? at h
  dsimp only at h
  split at h
  next => cases h
  next hwhole =>
    obtain rfl := Option.some.inj h
    obtain ⟨places, rest, hplaces, hfraction, hrest⟩ := fraction_eq (s.dropWhile Char.isDigit)
    let n : NumberWord := ⟨s.takeWhile Char.isDigit, places, by simpa using hwhole,
      List.all_eq_true.1 List.all_takeWhile, hplaces⟩
    have hchars : s.takeWhile Char.isDigit ++ fraction (s.dropWhile Char.isDigit) = n.chars := by
      rw [hfraction]
      rfl
    refine ⟨n.chars, rest, ?_, by rw [hchars], ?_⟩
    · rw [← hchars, List.append_assoc, ← hrest, List.takeWhile_append_dropWhile]
    · rw [hchars]
      exact .number n

/-- What stands at the head of a text is the spelling of a word. -/
theorem exists_spelling_of_lexeme? (h : lexeme? s = some l) :
    ∃ cs rest, s = cs ++ rest ∧ l.length = cs.length ∧ Spells l.word cs := by
  unfold lexeme? at h
  obtain h | ⟨hword, h⟩ := Option.or_eq_some_iff.1 h
  · exact heads_of_wordLexeme? h
  obtain h | ⟨-, h⟩ := Option.or_eq_some_iff.1 h
  · exact heads_of_symbolLexeme? h
  obtain h | ⟨-, h⟩ := Option.or_eq_some_iff.1 h
  · exact heads_of_cellLexeme? hword h
  · exact heads_of_numberLexeme? h

theorem length_pos_of_lexeme? (h : lexeme? s = some l) : 0 < l.length := by
  obtain ⟨cs, rest, -, hlength, hspells⟩ := exists_spelling_of_lexeme? h
  exact hlength ▸ List.length_pos_iff.2 hspells.ne_nil

/-! ## Texts that are cut into words -/

/-- Texts that are cut into words: at each place the next word is the one that stands at the head. -/
inductive Scans : List Char → List Word → Prop
  | nil : Scans [] []
  | cons {s : List Char} {l : Lexeme} {ws : List Word} (h : lexeme? s = some l)
    (hrest : Scans (s.drop l.length) ws) : Scans s (l.word :: ws)

theorem scans_of_piecesFrom {position covered : Nat}
    (h : (piecesFrom position covered s).filterMap Piece.stray? = []) :
    Scans (s.drop covered)
      (((piecesFrom position covered s).filterMap Piece.token?).map Token.word) := by
  fun_induction piecesFrom position covered s with
  | case1 => simpa using Scans.nil
  | case2 position covered c s ih => exact ih h
  | case3 position c s l hl ih =>
    have hdrop : (c :: s).drop l.length = s.drop (l.length - 1) := by
      obtain ⟨n, hn⟩ := Nat.exists_eq_add_of_le' (length_pos_of_lexeme? hl)
      rw [hn]
      rfl
    exact .cons hl (hdrop ▸ ih (by simpa [Piece.stray?] using h))
  | case4 position c s hnone ih => simp [Piece.stray?] at h

/-- A formula with tokens has no stray characters. -/
theorem stray_eq_nil_of_tokenize (h : tokenize formula = .ok ts) :
    (pieces formula).filterMap Piece.stray? = [] := by
  unfold tokenize at h
  split at h
  · cases h
  dsimp only at h
  split at h
  · cases h
  next hstrays => simpa using hstrays

/-- A formula with tokens is cut into their words. -/
theorem scans_of_tokenize (h : tokenize formula = .ok ts) :
    Scans (withoutSeparators formula) (ts.map Token.word) := by
  rw [(eq_of_tokenize h).1]
  exact scans_of_piecesFrom (stray_eq_nil_of_tokenize h)

namespace Scans

theorem exists_spelling (h : Scans s ws) (hw : w ∈ ws) : ∃ cs, Spells w cs := by
  induction h with
  | nil => cases hw
  | cons hl _ ih =>
    obtain rfl | hw := List.mem_cons.1 hw
    · obtain ⟨cs, _, -, -, hspells⟩ := exists_spelling_of_lexeme? hl
      exact ⟨cs, hspells⟩
    · exact ih hw

theorem eq_nil (h : Scans [] ws) : ws = [] := by
  cases h with
  | nil => rfl
  | cons hl _ =>
    obtain ⟨cs, rest, hcs, -, hspells⟩ := exists_spelling_of_lexeme? hl
    exact absurd (List.append_eq_nil_iff.1 hcs.symm).1 hspells.ne_nil

/-- The first word is what stands at the head. -/
theorem exists_cons (h : Scans s ws) (hs : s ≠ []) :
    ∃ l rest, lexeme? s = some l ∧ ws = l.word :: rest ∧ Scans (s.drop l.length) rest := by
  cases h with
  | nil => exact absurd rfl hs
  | cons hl hrest => exact ⟨_, _, hl, rfl, hrest⟩

/-- What holds of all characters of the words that a text is cut into holds of the characters of the
text. -/
theorem forall_mem {P : Char → Prop} (h : Scans s ws)
    (hP : ∀ w ∈ ws, ∀ cs, Spells w cs → ∀ c ∈ cs, P c) : ∀ c ∈ s, P c := by
  induction h with
  | nil => simp
  | cons hl _ ih =>
    obtain ⟨cs, rest, rfl, hlength, hspells⟩ := exists_spelling_of_lexeme? hl
    rw [hlength, List.drop_left] at ih
    obtain ⟨hword, hwords⟩ := List.forall_mem_cons.1 hP
    exact List.forall_mem_append.2 ⟨hword cs hspells, ih hwords⟩

end Scans

/-- Every token of a formula is spelled in some way. -/
theorem exists_spelling_of_tokenize {t : Token} (h : tokenize formula = .ok ts) (ht : t ∈ ts) :
    ∃ cs, Spells t.word cs :=
  (scans_of_tokenize h).exists_spelling (List.mem_map_of_mem ht)

end Spreadsheet
