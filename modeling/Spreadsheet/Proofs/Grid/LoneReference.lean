import Spreadsheet.Proofs.Formula.Acceptance
import Spreadsheet.Proofs.Grid.Equations

/-!
# References that stand alone

A text that consists of an equals sign and one cell name refers to the cell without being read as a
formula. Read as a formula, such a name is words of formulas as long as it begins with one, and then
one operand. So the formula consists of the cell if and only if the name begins with no word, and then
both ways lead to the same outcome, except that a formula refuses a text with a comma. If the name
begins with a word, the formula has no value at all.

## Main definitions

* `BeginsWithWord` — the names at whose head formulas read a word.

## Main statements

* `exists_reads_name` — how letters and digits are read.
* `Entry.eval_formula_of_aliasTarget?` — the meaning of a formula that consists of a cell name.
* `Grid.reference_agrees_with_formula` — a reference and the formula that looks like it.
* `Grid.reference_apart_from_formula` — a reference to a cell whose name begins with a word.
-/

namespace Spreadsheet

variable {resolve : String → Traced Value} {text name formula : String} {v : Value}
  {letters digits body s : List Char} {ts : List Token} {ws : List Word} {w : Word}

/-! ## Names that begin with a word -/

/-- Whether a name begins with a word of formulas, in any case. -/
def BeginsWithWord (name : String) : Prop :=
  ∃ w ∈ reservedWords, w.toList <+: name.toList.map Char.toLower

instance (name : String) : Decidable (BeginsWithWord name) :=
  inferInstanceAs (Decidable (∃ w ∈ reservedWords, w.toList <+: name.toList.map Char.toLower))

theorem beginsWithWord_toUpper :
    BeginsWithWord (String.ofList (s.map Char.toUpper)) ↔
      ∃ w ∈ reservedWords, w.toList <+: s.map Char.toLower := by
  have hlower : (s.map Char.toUpper).map Char.toLower = s.map Char.toLower := by
    rw [List.map_map]
    refine List.map_congr_left fun c _ => ?_
    show c.toUpper.toLower = c.toLower
    rw [← Char.toNat_inj, toNat_toLower, toNat_toLower, toNat_toUpper]
    grind
  rw [BeginsWithWord, String.toList_ofList, hlower]

theorem CellWord.not_beginsWithWord (c : CellWord) : ¬ BeginsWithWord c.name := by
  rw [name, beginsWithWord_toUpper]
  rintro ⟨w, hw, hprefix⟩
  exact c.not_reserved w hw hprefix

/-! ## Words -/

/-- Letters and digits are read as words of formulas, of which there are some if a word stands at their
head, and one operand behind them. -/
theorem exists_reads_name (hdigits : digits ≠ []) (halpha : ∀ c ∈ letters, c.isAlpha)
    (hdigit : ∀ c ∈ digits, c.isDigit) :
    ∃ ws w, Reads (letters ++ digits) [] (ws ++ [w]) ∧
      (∀ u ∈ ws, u.kind = .operator ∨ u.kind = .function) ∧ (w.kind = .number ∨ w.kind = .cell) ∧
      ((∃ r ∈ reservedWords, r.toList <+: (letters ++ digits).map Char.toLower) → ws ≠ []) := by
  -- a word takes three letters away, and what follows it is again letters and digits
  induction hn : letters.length using Nat.strong_induction_on generalizing letters with
  | h n ih =>
  by_cases hreserved : ∃ r ∈ reservedWords, r.toList <+: (letters ++ digits).map Char.toLower
  · obtain ⟨r, hr, hprefix⟩ := hreserved
    obtain ⟨front, rest, rfl, hfront⟩ := exists_letters_of_reserved hr hdigit hprefix
    obtain ⟨kind, hkind, hword, hlen⟩ := exists_wordKind?_of_reserved hr
    have hthree : front.length = 3 := by
      rw [← hlen, ← hfront, List.length_map]
    have hne : front ≠ [] := by
      rintro rfl
      cases hthree
    have hhead : Reads front (rest ++ digits ++ []) [⟨kind, String.ofList r.toList⟩] :=
      reads_of_lexeme? hne (lexeme?_word hkind hlen hfront)
    rw [List.length_append] at hn
    obtain ⟨ws, w, hreads, hws, hw, -⟩ :=
      ih rest.length (by omega) (fun c hc => halpha c (List.mem_append_right _ hc)) rfl
    refine ⟨⟨kind, String.ofList r.toList⟩ :: ws, w, ?_, ?_, hw, fun _ => List.cons_ne_nil _ _⟩
    · rw [List.append_assoc]
      exact hhead.append hreads
    · exact List.forall_mem_cons.2 ⟨hword, hws⟩
  · obtain rfl | hletters := eq_or_ne letters []
    · let n : NumberWord := ⟨digits, [], hdigits, hdigit, by simp⟩
      have hnumber : Reads digits [] [⟨.number, n.text⟩] :=
        reads_phrase (.number n) (by simp [n, Phrase.spelling, NumberWord.chars])
          (by simp [EndsOperand])
      exact ⟨[], _, hnumber, by simp, .inl rfl, fun h => absurd h hreserved⟩
    · let c : CellWord := ⟨letters, digits, hletters, hdigits, halpha, hdigit,
        fun r hr hprefix => hreserved ⟨r, hr, hprefix⟩⟩
      have hcell : Reads (letters ++ digits) [] [⟨.cell, c.name⟩] :=
        reads_phrase (.cell c) rfl (by simp [EndsOperand])
      exact ⟨[], _, hcell, by simp, .inr rfl, fun h => absurd h hreserved⟩

/-! ## Values -/

theorem surplus_nonpos (h : ∀ u ∈ ws, u.kind = .operator ∨ u.kind = .function) : surplus ws ≤ 0 := by
  induction ws with
  | nil => exact Int.le_refl 0
  | cons u ws ih =>
    obtain ⟨hu, hws⟩ := List.forall_mem_cons.1 h
    have hle := ih hws
    rw [surplus_cons]
    obtain hu | hu := hu <;> simp only [hu, Token.Kind.weight] <;> omega

/-- A formula of words and one operand behind them has a value only if there are no words. -/
theorem eq_nil_of_value (hreads : Reads (withoutSeparators formula) [] (ws ++ [w]))
    (hws : ∀ u ∈ ws, u.kind = .operator ∨ u.kind = .function) (hw : w.kind = .number ∨ w.kind = .cell)
    (h : ((Entry.formula formula).eval resolve).outcome = .ok v) : ws = [] := by
  obtain ⟨ts, hts, -, hone⟩ := exists_tokens_of_value h
  have hbare := (eq_of_tokenize hts).2
  have hwords := words_eq_of_reads hreads hts
  obtain - | ⟨u, ws⟩ := ws
  · rfl
  obtain ⟨hu, hrest⟩ := List.forall_mem_cons.1 hws
  have hle := surplus_nonpos hrest
  rw [hwords, surplus_append, surplus_cons, surplus_cons, surplus_nil] at hone
  obtain hu | hu := hu
  -- an operator would need one operand more
  · obtain hw | hw := hw <;> simp only [hu, hw, Token.Kind.weight] at hone <;> omega
  -- a function would need a group
  · obtain - | ⟨t, ts⟩ := ts
    · cases hwords
    obtain ⟨ht, htail⟩ := List.cons.inj (hwords : t.word :: ts.map Token.word = _)
    have hfunction : t.kind = .function := (congrArg Word.kind ht).trans hu
    obtain ⟨o, us, rfl, hopen, -⟩ := exists_openParen_of_bareFunction? hfunction hbare
    have hkind : o.word.kind = .openParen := hopen
    have hmem : o.word ∈ ws ++ [w] := by
      rw [← List.append_eq, ← htail]
      exact List.mem_cons_self
    obtain ho | ho := List.mem_append.1 hmem
    · have := hrest _ ho
      simp [hkind] at this
    · rw [← List.mem_singleton.1 ho] at hw
      simp [hkind] at hw

/-! ## Names of cells -/

/-- A name that begins with no word is one token, whose text is the name in upper case. -/
theorem exists_token_of_aliasTarget? (hname : CellName.aliasTarget? text = some name)
    (hbody : text.toList = '=' :: body) (h : ¬ BeginsWithWord name) :
    ∃ t, tokenize (String.ofList body) = .ok [t] ∧ t.word = ⟨.cell, name⟩ := by
  obtain ⟨letters, digits, final, htext, hend, hletters, hdigits, halpha, hdigit, rfl⟩ :=
    CellName.aliasTarget?_eq_some hname
  obtain rfl : body = letters ++ digits ++ final := List.tail_eq_of_cons_eq (hbody ▸ htext)
  rw [beginsWithWord_toUpper] at h
  let c : CellWord := ⟨letters, digits, hletters, hdigits, halpha, hdigit,
    fun r hr hprefix => h ⟨r, hr, hprefix⟩⟩
  have hrenders : (Phrase.cell c).Renders (String.ofList (letters ++ digits ++ final)) := by
    rw [Phrase.Renders, ← withoutSeparators_eq, withoutSeparators_of_isAtEnd halpha hdigit hend]
    rfl
  obtain ⟨ts, hts, hwords⟩ := tokenize_of_renders hrenders
  obtain ⟨t, rfl, ht⟩ := List.map_eq_singleton_iff.1 hwords
  exact ⟨t, hts, ht⟩

/-- No token of a formula is a cell whose name begins with a word. -/
theorem not_beginsWithWord_of_tokenize {t : Token} (h : tokenize formula = .ok ts) (ht : t ∈ ts)
    (hword : t.word = ⟨.cell, name⟩) : ¬ BeginsWithWord name := by
  have hgrammar := inGrammar_of_tokenize h ht
  rw [hword] at hgrammar
  cases hgrammar with
  | cell c => exact c.not_beginsWithWord

namespace Entry

/-- The meaning of a formula that consists of a cell. -/
theorem eval_formula_of_aliasTarget? (hname : CellName.aliasTarget? text = some name)
    (hbody : text.toList = '=' :: body) (h : ¬ BeginsWithWord name) :
    (Entry.formula (String.ofList body)).eval resolve = (Expr.cell name).eval resolve := by
  obtain ⟨t, ht, hword⟩ := exists_token_of_aliasTarget? hname hbody h
  have hkind : t.kind = .cell := (Token.kind_eq_of_word hword).1
  have hpostorder : postorder (String.ofList body) = .ok [t] := by
    rw [postorder, ht]
    show toPostorder [t] = _
    rw [toPostorder, postorderFrom_operand (.inr hkind)]
    rfl
  have hrun : Machine.run resolve [t] = (Expr.cell name).eval resolve :=
    Machine.run_postorder (by rw [List.map_singleton, hword]; rfl)
  rw [← hrun]
  show (Traced.ofExcept (postorder (String.ofList body)) >>= Machine.run resolve : Traced Value) = _
  rw [hpostorder]
  rfl

/-- A formula that consists of the name of a cell has no value if the name begins with a word. -/
theorem eval_formula_ne_ok (hname : CellName.aliasTarget? text = some name)
    (hbody : text.toList = '=' :: body) (h : BeginsWithWord name) :
    ((Entry.formula (String.ofList body)).eval resolve).outcome ≠ .ok v := by
  intro hv
  obtain ⟨letters, digits, final, htext, hend, -, hdigits, halpha, hdigit, rfl⟩ :=
    CellName.aliasTarget?_eq_some hname
  obtain rfl : body = letters ++ digits ++ final := List.tail_eq_of_cons_eq (hbody ▸ htext)
  obtain ⟨ws, w, hreads, hws, hw, hne⟩ := exists_reads_name hdigits halpha hdigit
  rw [← withoutSeparators_of_isAtEnd halpha hdigit hend] at hreads
  exact hne (beginsWithWord_toUpper.1 h) (eq_nil_of_value hreads hws hw hv)

end Entry

theorem outcome_eval_cell (resolve : String → Traced Value) (name : String) :
    (∀ s, (resolve name).outcome = .ok (.text s) → ',' ∈ s.toList →
        ((Expr.cell name).eval resolve).outcome = .error (.commaInCell name)) ∧
      ((∀ s, (resolve name).outcome = .ok (.text s) → ',' ∉ s.toList) →
        ((Expr.cell name).eval resolve).outcome = (resolve name).outcome) := by
  rw [Expr.eval, Traced.outcome_bind]
  cases (resolve name).outcome with
  | error e => simp [bind, Except.bind]
  | ok v =>
    cases v with
    | text s =>
      refine ⟨fun s' hs hcomma => ?_, fun h => ?_⟩
      · cases hs
        simp [bind, Except.bind, hcomma]
      · simp [bind, Except.bind, h s rfl]
    | _ => simp [bind, Except.bind]

/-! ## References and formulas -/

namespace Grid

variable {g : Grid} {limit : Int} {more : Nat} {visited : List String} {m : String}

/-- A cell that refers to another one has the outcome of that one. -/
theorem outcome_resolveBelow_of_aliasTarget? (hname : CellName.aliasTarget? text = some name)
    (htext : g.text? (Text.upper m) = some text) (hcell : g.HasCell m)
    (hmem : Text.upper m ∉ visited) :
    (g.resolveBelow limit (more + 1) visited m).outcome =
      (g.resolveBelow limit more (visited ++ [Text.upper m]) name).outcome := by
  obtain ⟨letters, digits, final, hbody, -⟩ := CellName.aliasTarget?_eq_some hname
  have hentry : g.entry (Text.upper m) = .reference name := by
    rw [entry_of_text? htext, Entry.ofText_of_equals hbody, hname]
  rw [resolveBelow_succ hmem, Traced.outcome_bind, Traced.outcome_ofExcept,
    checkName_eq_ok.2 (hasCell_upper.2 hcell), hentry]
  rfl

/-- A text that refers to a cell and the formula in that text. If the name of the cell begins with no
word, the formula is that cell, and it has the outcome that the reference has, unless this is a text
with a comma. If the name begins with a word, the formula does not consist of the cell, and it has no
value. -/
theorem reference_agrees_with_formula (text name : String)
    (hname : CellName.aliasTarget? text = some name) :
    (¬ BeginsWithWord name →
      (∃ t, tokenize (withoutEquals text) = .ok [t] ∧ t.kind = .cell ∧ t.text = name) ∧
      ∀ (rows columns limit : Int) (texts : CellTexts) (more : Nat) (visited : List String)
        (m : String), texts.get? (Text.upper m) = some text →
        (ofTexts rows columns texts).HasCell m → Text.upper m ∉ visited →
        let reference := ((ofTexts rows columns texts).resolveBelow limit (more + 1) visited m).outcome
        let formula := ((Entry.formula (withoutEquals text)).eval
          ((ofTexts rows columns texts).resolveBelow limit more
            (visited ++ [Text.upper m]))).outcome
        (∀ s, reference = .ok (.text s) → ',' ∈ s.toList → formula = .error (.commaInCell name)) ∧
          ((∀ s, reference = .ok (.text s) → ',' ∉ s.toList) → formula = reference)) ∧
    (BeginsWithWord name →
      (∀ t, tokenize (withoutEquals text) = .ok [t] → ¬ (t.kind = .cell ∧ t.text = name)) ∧
      ∀ (resolve : String → Traced Value) (v : Value),
        ((Entry.formula (withoutEquals text)).eval resolve).outcome ≠ .ok v) := by
  obtain ⟨letters, digits, final, hbody, -⟩ := CellName.aliasTarget?_eq_some hname
  rw [withoutEquals_eq hbody]
  refine ⟨fun hfree => ⟨?_, fun rows columns limit texts more visited m htext hcell hmem => ?_⟩,
    fun hbegins => ⟨fun t ht ⟨hkind, htext⟩ => ?_, fun resolve v => ?_⟩⟩
  · obtain ⟨t, ht, hword⟩ := exists_token_of_aliasTarget? hname hbody hfree
    exact ⟨t, ht, Token.kind_eq_of_word hword⟩
  · have hgrid := (text?_ofTexts_upper rows columns texts m).trans htext
    dsimp only
    rw [outcome_resolveBelow_of_aliasTarget? hname hgrid hcell hmem,
      Entry.eval_formula_of_aliasTarget? hname hbody hfree]
    exact outcome_eval_cell _ name
  -- whatever the words of the formula are, none of them is such a cell
  · refine not_beginsWithWord_of_tokenize ht List.mem_cons_self ?_ hbegins
    rw [Token.word, hkind, htext]
  · exact Entry.eval_formula_ne_ok hname hbody hbegins

/-- A cell that refers to a text with a comma, with a line end behind the name. -/
def listing : CellTexts :=
  .ofList [("A1", "=b1\n"), ("B1", "x,y"), ("C1", "=B1")]

/-- The reference is the text; the formula refuses it. -/
theorem reference_agrees_with_formula_listing :
    CellName.aliasTarget? "=b1\n" = some "B1" ∧ ¬ BeginsWithWord "B1" ∧
      (ofTexts 1 3 listing).HasCell "a1" ∧
      ((ofTexts 1 3 listing).resolveBelow 2 2 [] "a1").outcome = .ok (.text "x,y") ∧
      ((Entry.formula "b1\n").eval
        ((ofTexts 1 3 listing).resolveBelow 2 1 ["A1"])).outcome = .error (.commaInCell "B1") := by
  have hname : CellName.aliasTarget? "=b1\n" = some "B1" := by decide +kernel
  have hfree : ¬ BeginsWithWord "B1" := by decide +kernel
  have hcell : (ofTexts 1 3 listing).HasCell "a1" := ⟨1, 1, by decide +kernel⟩
  have hvalue : ((ofTexts 1 3 listing).resolveBelow 2 2 [] "a1").outcome = .ok (.text "x,y") := by
    decide +kernel
  obtain ⟨-, hagree⟩ := (reference_agrees_with_formula "=b1\n" "B1" hname).1 hfree
  have hformula := (hagree 1 3 2 listing 1 [] "a1" (by decide +kernel) hcell
    List.not_mem_nil).1 "x,y" hvalue (by decide)
  exact ⟨hname, hfree, hcell, hvalue, hformula⟩

/-- `=mod1` refers to the cell `MOD1`, but as a formula it is an operator and a number, which has no
value. -/
theorem reference_apart_from_formula :
    CellName.aliasTarget? "=mod1" = some "MOD1" ∧
      tokenize "mod1" = .ok [⟨.operator, "mod", 0⟩, ⟨.number, "1", 3⟩] ∧
      (ofTexts 1 9182 (.ofList [("A1", "=mod1"), ("MOD1", "7")])).HasCell "A1" ∧
      ((ofTexts 1 9182 (.ofList [("A1", "=mod1"), ("MOD1", "7")])).resolveBelow 2 2 []
        "A1").outcome = .ok (.decimal (.ofNat 7)) ∧
      ((Entry.formula "mod1").eval ((ofTexts 1 9182 (.ofList
        [("A1", "=mod1"), ("MOD1", "7")])).resolveBelow 2 1 ["A1"])).outcome =
        .error (.missingOperands "mod") := by
  refine ⟨?_, ?_, ⟨1, 1, ?_⟩, ?_, ?_⟩ <;> decide +kernel

end Grid

end Spreadsheet
