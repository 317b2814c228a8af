import Spreadsheet.Proofs.Formula.Spelling

/-!
# Cells of formulas

## Main statements

* `exists_upper_of_tokenize` — the cells of formulas have names of letters and digits.
* `upper_eq_self_of_tokenize` — these names are in upper case.
* `text_eq_of_aliasTarget?` — the formula of a reference has no cell but the one referred to.
-/

namespace Spreadsheet

variable {formula text name : String} {ts : List Token} {t : Token}

/-! ## Names in upper case -/

/-- The cells of formulas have names of letters and digits, in upper case. -/
theorem exists_upper_of_tokenize (h : tokenize formula = .ok ts) (ht : t ∈ ts)
    (hkind : t.kind = .cell) :
    ∃ cs : List Char, (∀ c ∈ cs, c.isAlpha ∨ c.isDigit) ∧ t.text = Text.upper (String.ofList cs) := by
  obtain ⟨_, hspells⟩ := exists_spelling_of_tokenize h ht
  generalize hw : t.word = w at hspells
  obtain ⟨htkind, htext⟩ := Token.kind_eq_of_word hw
  cases hspells with
  | cell c =>
    refine ⟨c.chars, fun d hd => ?_, ?_⟩
    · exact (List.mem_append.1 hd).imp (c.isAlpha_letters d) (c.isDigit_digits d)
    · rw [Text.upper, String.toList_ofList, flatMap_upperChar fun _ => toNat_lt_of_mem_chars]
      exact htext
  | number | operator | function | openParen | closeParen => cases hkind.symm.trans htkind

theorem upper_eq_self_of_tokenize (h : tokenize formula = .ok ts) (ht : t ∈ ts)
    (hkind : t.kind = .cell) : Text.upper t.text = t.text := by
  obtain ⟨cs, -, hcs⟩ := exists_upper_of_tokenize h ht hkind
  rw [hcs, Text.upper_upper]

/-! ## References -/

/-- The tokens of a formula are the words as which it is read. -/
theorem words_eq_of_reads {ws : List Word} (hreads : Reads (withoutSeparators formula) [] ws)
    (h : tokenize formula = .ok ts) : ts.map Token.word = ws := by
  obtain ⟨us, rfl, hpieces⟩ := hreads.pieces
  rw [(eq_of_tokenize h).1, hpieces, List.filterMap_map]
  simp [Function.comp_def, Piece.token?]

/-- A word with digits behind it is a word and a number. -/
theorem reads_reserved {letters digits : List Char} {r : String} (hr : r ∈ reservedWords)
    (hletters : letters.map Char.toLower = r.toList) (hdigits : digits ≠ [])
    (hdigit : ∀ c ∈ digits, c.isDigit) :
    ∃ ws, Reads (letters ++ digits) [] ws ∧ ∀ w ∈ ws, w.kind ≠ .cell := by
  let n : NumberWord := ⟨digits, [], hdigits, hdigit, by simp⟩
  have hchars : n.chars = digits := by simp [n, NumberWord.chars]
  have hnumber : Reads digits [] [⟨.number, n.text⟩] := by
    rw [← hchars]
    exact reads_of_lexeme? (by rwa [hchars]) (lexeme?_number n (by simp [EndsOperand]))
  obtain ⟨kind, hkind, hword, hlen⟩ := exists_wordKind?_of_reserved hr
  have hne : letters ≠ [] := by
    rintro rfl
    rw [← hletters] at hlen
    cases hlen
  have hhead : Reads letters (digits ++ []) [⟨kind, String.ofList r.toList⟩] :=
    reads_of_lexeme? hne (lexeme?_word hkind hlen hletters)
  refine ⟨_, hhead.append hnumber, fun w hw => ?_⟩
  obtain hw | hw := List.mem_append.1 hw
  · rw [List.mem_singleton.1 hw]
    rintro rfl
    simp at hword
  · rw [List.mem_singleton.1 hw]
    simp

/-- A word at the head of letters and digits is made of letters. -/
theorem exists_letters_of_reserved {letters digits : List Char} {r : String} (hr : r ∈ reservedWords)
    (hdigit : ∀ c ∈ digits, c.isDigit) (h : r.toList <+: (letters ++ digits).map Char.toLower) :
    ∃ front rest, letters = front ++ rest ∧ front.map Char.toLower = r.toList := by
  obtain ⟨tail, htail⟩ := h
  obtain ⟨front, rest, hsplit, hfront, -⟩ := List.map_eq_append_iff.1 htail.symm
  obtain ⟨more, rfl, hmore⟩ | ⟨more, rfl, -⟩ := List.append_eq_append_iff.1 hsplit
  · have hnone : more = [] := by
      refine List.eq_nil_iff_forall_not_mem.2 fun c hc => ?_
      have hletter : c.toLower.isAlpha :=
        isAlpha_of_mem_reserved hr _ (hfront ▸ List.mem_map_of_mem (List.mem_append_right _ hc))
      have hc : c.isDigit := hdigit c (hmore ▸ List.mem_append_left _ hc)
      rw [isAlpha_toLower, isAlpha_of_isDigit hc] at hletter
      cases hletter
    rw [hnone, List.append_nil] at hfront
    exact ⟨letters, [], by simp, hfront⟩
  · exact ⟨front, more, rfl, hfront⟩

/-- Up to three letters begin with a word only if they are that word. -/
theorem not_reserved {letters digits : List Char} (hdigit : ∀ c ∈ digits, c.isDigit)
    (hlen : letters.length ≤ 3) (h : ∀ r ∈ reservedWords, letters.map Char.toLower ≠ r.toList) :
    ∀ r ∈ reservedWords, ¬ r.toList <+: (letters ++ digits).map Char.toLower := by
  intro r hr hprefix
  obtain ⟨front, rest, rfl, hfront⟩ := exists_letters_of_reserved hr hdigit hprefix
  obtain ⟨-, -, -, hthree⟩ := exists_wordKind?_of_reserved hr
  have hlength : front.length = 3 := by
    rw [← hthree, ← hfront, List.length_map]
  have hnone : rest = [] := by
    rw [List.length_append] at hlen
    exact List.eq_nil_of_length_eq_zero (by omega)
  subst hnone
  exact h r hr (by rwa [List.append_nil])

theorem isSeparator_eq_false {c : Char} (h : c.isAlpha ∨ c.isDigit) : isSeparator c = false := by
  rw [Bool.eq_false_iff]
  intro hseparator
  simp only [isSeparator, Bool.or_eq_true, beq_iff_eq] at hseparator
  obtain ((rfl | rfl) | rfl) | rfl := hseparator <;> simp at h

/-- A final line end is left out with the separators. -/
theorem withoutSeparators_of_isAtEnd {letters digits final : List Char}
    (halpha : ∀ c ∈ letters, c.isAlpha) (hdigit : ∀ c ∈ digits, c.isDigit)
    (hend : CellName.isAtEnd final) :
    withoutSeparators (String.ofList (letters ++ digits ++ final)) = letters ++ digits := by
  have hseparator : ∀ c ∈ letters ++ digits, isSeparator c = false := fun c hc =>
    isSeparator_eq_false ((List.mem_append.1 hc).imp (halpha c) (hdigit c))
  have hfinal : final.filter (!isSeparator ·) = [] := by
    simp only [CellName.isAtEnd, Bool.or_eq_true, decide_eq_true_eq] at hend
    obtain rfl | rfl := hend <;> rfl
  rw [withoutSeparators, String.toList_ofList, List.filter_append, hfinal, List.append_nil,
    List.filter_eq_self]
  simpa using hseparator

/-- The formula of a reference to a cell has no other cell. -/
theorem text_eq_of_aliasTarget? {body : List Char} {position : Nat × Nat}
    (hname : CellName.aliasTarget? text = some name) (hsplit : CellName.split name = .ok position)
    (htext : text.toList = '=' :: body) (h : tokenize (String.ofList body) = .ok ts) (ht : t ∈ ts)
    (hkind : t.kind = .cell) : t.text = name := by
  have hupper : Text.upper name = name := CellName.upper_eq_self_of_aliasTarget? hname
  obtain ⟨letters, digits, final, htext', hend, hletters, hdigits, halpha, hdigit, rfl⟩ :=
    CellName.aliasTarget?_eq_some hname
  obtain rfl : body = letters ++ digits ++ final := List.tail_eq_of_cons_eq (htext ▸ htext')
  have hbody : withoutSeparators (String.ofList (letters ++ digits ++ final)) = letters ++ digits :=
    withoutSeparators_of_isAtEnd halpha hdigit hend
  have hlen : letters.length ≤ 3 :=
    CellName.length_letters_le hletters hdigits halpha hdigit hupper hsplit
  -- `mod1` is a name of a cell, but reads as a word and a number
  by_cases hreserved : ∃ r ∈ reservedWords, letters.map Char.toLower = r.toList
  · obtain ⟨r, hr, hlower⟩ := hreserved
    obtain ⟨ws, hreads, hws⟩ := reads_reserved hr hlower hdigits hdigit
    rw [← hbody] at hreads
    exact absurd hkind (hws _ (words_eq_of_reads hreads h ▸ List.mem_map_of_mem ht))
  · let c : CellWord := ⟨letters, digits, hletters, hdigits, halpha, hdigit,
      not_reserved hdigit hlen fun r hr heq => hreserved ⟨r, hr, heq⟩⟩
    have hreads : Reads (letters ++ digits) [] [⟨.cell, c.name⟩] :=
      reads_phrase (.cell c) rfl (by simp [EndsOperand])
    rw [← hbody] at hreads
    have hword := List.mem_singleton.1 (words_eq_of_reads hreads h ▸ List.mem_map_of_mem ht)
    exact (Token.kind_eq_of_word hword).2

end Spreadsheet
