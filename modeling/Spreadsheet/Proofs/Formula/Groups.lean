import Spreadsheet.Proofs.Formula.Instructions

/-!
# Groups of formulas

If a formula has a postorder, then its parentheses match: whenever a group is closed, one is open,
and in the end none is. Apart from this the order of its words is free.

## Main definitions

* `Word.InGrammar` — the words of the grammar.
* `Grouped` — words whose parentheses match, and whose functions are called.
* `Unclosed` — words that close some groups opened before, and match otherwise.

## Main statements

* `Converts.unclosed` — the tokens to come close what is open.
* `grouped_of_toPostorder` — a formula with a postorder has matching parentheses.
-/

namespace Spreadsheet

variable {formula : String} {stack inner ts out : List Token} {t : Token} {w : Word}
  {us vs ws : List Word} {depth : Nat}

/-! ## Words of the grammar -/

/-- The words of the grammar. -/
inductive Word.InGrammar : Word → Prop
  | number (n : NumberWord) : InGrammar ⟨.number, n.text⟩
  | cell (c : CellWord) : InGrammar ⟨.cell, c.name⟩
  | operator (op : BinaryOperator) : InGrammar ⟨.operator, op.symbol⟩
  | function (f : UnaryFunction) : InGrammar ⟨.function, f.symbol⟩
  | openParen : InGrammar ⟨.openParen, "("⟩
  | closeParen : InGrammar ⟨.closeParen, ")"⟩

theorem Word.InGrammar.inFormula (h : w.InGrammar) : w.InFormula := by
  cases h with
  | number n => exact .instruction (.number n)
  | cell c => exact .instruction (.cell c.name)
  | operator op => exact .instruction (.operator op)
  | function f => exact .instruction (.function f)
  | openParen => exact .openParen
  | closeParen => exact .closeParen

theorem Word.InGrammar.eq_openParen (h : w.InGrammar) (hkind : w.kind = .openParen) :
    w = ⟨.openParen, "("⟩ := by
  cases h with
  | openParen => rfl
  | number | cell | operator | function | closeParen => cases hkind

theorem Word.InGrammar.eq_closeParen (h : w.InGrammar) (hkind : w.kind = .closeParen) :
    w = ⟨.closeParen, ")"⟩ := by
  cases h with
  | closeParen => rfl
  | number | cell | operator | function | openParen => cases hkind

theorem Word.InGrammar.exists_function (h : w.InGrammar) (hkind : w.kind = .function) :
    ∃ f : UnaryFunction, w = ⟨.function, f.symbol⟩ := by
  cases h with
  | function f => exact ⟨f, rfl⟩
  | number | cell | operator | openParen | closeParen => cases hkind

theorem Spells.inGrammar {cs : List Char} (h : Spells w cs) : w.InGrammar := by
  cases h with
  | number n => exact .number n
  | cell c => exact .cell c
  | operator op => exact .operator op
  | function f => exact .function f
  | openParen => exact .openParen
  | closeParen => exact .closeParen

/-- The tokens of every formula are words of the grammar. -/
theorem inGrammar_of_tokenize (h : tokenize formula = .ok ts) (ht : t ∈ ts) : t.word.InGrammar := by
  obtain ⟨_, hspells⟩ := exists_spelling_of_tokenize h ht
  exact hspells.inGrammar

/-! ## Matching parentheses -/

/-- Words whose parentheses match and whose functions stand before a group. Where operands and
operators stand does not matter. -/
inductive Grouped : List Word → Prop
  | nil : Grouped []
  | number (n : NumberWord) {ws : List Word} (h : Grouped ws) : Grouped (⟨.number, n.text⟩ :: ws)
  | cell (c : CellWord) {ws : List Word} (h : Grouped ws) : Grouped (⟨.cell, c.name⟩ :: ws)
  | operator (op : BinaryOperator) {ws : List Word} (h : Grouped ws) :
    Grouped (⟨.operator, op.symbol⟩ :: ws)
  | group {us ws : List Word} (hu : Grouped us) (h : Grouped ws) :
    Grouped (⟨.openParen, "("⟩ :: (us ++ ⟨.closeParen, ")"⟩ :: ws))
  | call (f : UnaryFunction) {us ws : List Word} (hu : Grouped us) (h : Grouped ws) :
    Grouped (⟨.function, f.symbol⟩ :: ⟨.openParen, "("⟩ :: (us ++ ⟨.closeParen, ")"⟩ :: ws))

/-- Words that close a number of groups opened before them, and whose parentheses match otherwise.
-/
inductive Unclosed : Nat → List Word → Prop
  | last {ws : List Word} (h : Grouped ws) : Unclosed 0 ws
  | next {depth : Nat} {us ws : List Word} (hu : Grouped us) (h : Unclosed depth ws) :
    Unclosed (depth + 1) (us ++ ⟨.closeParen, ")"⟩ :: ws)

/-- What may stand before matching words may stand before unclosed ones. -/
theorem Unclosed.append (hvs : ∀ ws, Grouped ws → Grouped (vs ++ ws)) (h : Unclosed depth ws) :
    Unclosed depth (vs ++ ws) := by
  cases h with
  | last h => exact .last (hvs _ h)
  | next hu h =>
    rw [← List.append_assoc]
    exact .next (hvs _ hu) h

theorem Unclosed.cons (hw : ∀ ws, Grouped ws → Grouped (w :: ws)) (h : Unclosed depth ws) :
    Unclosed depth (w :: ws) :=
  show Unclosed depth ([w] ++ ws) from h.append hw

theorem Unclosed.openParen (h : Unclosed (depth + 1) ws) :
    Unclosed depth (⟨.openParen, "("⟩ :: ws) := by
  cases h with
  | @next _ us ws hu h =>
    have hgroup : ∀ ws, Grouped ws →
        Grouped (⟨.openParen, "("⟩ :: (us ++ [⟨.closeParen, ")"⟩]) ++ ws) :=
      fun ws hws => by simpa using Grouped.group hu hws
    simpa using h.append hgroup

theorem Grouped.function (f : UnaryFunction) (h : Grouped (⟨.openParen, "("⟩ :: ws)) :
    Grouped (⟨.function, f.symbol⟩ :: ⟨.openParen, "("⟩ :: ws) := by
  cases h with
  | group hu h => exact .call f hu h

theorem Unclosed.function (f : UnaryFunction) (h : Unclosed depth (⟨.openParen, "("⟩ :: ws)) :
    Unclosed depth (⟨.function, f.symbol⟩ :: ⟨.openParen, "("⟩ :: ws) := by
  generalize hus : Word.mk .openParen "(" :: ws = us at h
  cases h with
  | last h =>
    subst hus
    exact .last (h.function f)
  | @next _ us vs hu h =>
    obtain - | ⟨u, us⟩ := us
    · cases hus
    · obtain ⟨rfl, rfl⟩ := List.cons.inj hus
      exact .next (hu.function f) h

/-! ## Postorder -/

/-- How many groups are open while tokens wait. -/
def openGroups (stack : List Token) : Nat :=
  stack.countP (·.kind = .openParen)

theorem openGroups_cons_of_ne (h : t.kind ≠ .openParen) :
    openGroups (t :: stack) = openGroups stack := by
  simp [openGroups, h]

theorem openGroups_cons (h : t.kind = .openParen) :
    openGroups (t :: stack) = openGroups stack + 1 := by
  simp [openGroups, h]

theorem openGroups_eq_zero (h : ∀ t ∈ stack, t.kind ≠ .openParen) : openGroups stack = 0 :=
  List.countP_eq_zero.2 fun t ht => by simpa using h t ht

theorem openGroups_append (h : ∀ t ∈ inner, t.kind ≠ .openParen) (stack : List Token) :
    openGroups (inner ++ stack) = openGroups stack := by
  rw [openGroups, List.countP_append, ← openGroups, openGroups_eq_zero h, Nat.zero_add, openGroups]

/-- What follows a function is an opening parenthesis. -/
theorem exists_openParen_of_bareFunction? (hkind : t.kind = .function)
    (h : bareFunction? (t :: ts) = none) :
    ∃ o us, ts = o :: us ∧ o.kind = .openParen ∧ bareFunction? ts = none := by
  rw [bareFunction?] at h
  split at h
  next => cases h
  next hcalled =>
    obtain - | ⟨o, us⟩ := ts
    · simp [hkind] at hcalled
    · exact ⟨o, us, rfl, by simpa [hkind] using hcalled, h⟩

theorem Word.InGrammar.grouped_cons (h : w.InGrammar)
    (hkind : w.kind = .number ∨ w.kind = .cell ∨ w.kind = .operator) (hws : Grouped ws) :
    Grouped (w :: ws) := by
  cases h with
  | number n => exact .number n hws
  | cell c => exact .cell c hws
  | operator op => exact .operator op hws
  | function | openParen | closeParen => simp at hkind

/-- The tokens to come close all groups that are open while tokens wait. -/
theorem Converts.unclosed (h : Converts stack ts out) (hts : ∀ t ∈ ts, t.word.InGrammar)
    (hstack : ∀ t ∈ stack, t.word.InFormula) (hcalled : bareFunction? ts = none) :
    Unclosed (openGroups stack) (ts.map Token.word) := by
  induction h with
  | ended hopen =>
    rw [openGroups_eq_zero hopen]
    exact .last .nil
  | @operand _ _ _ t ht _ ih =>
    obtain ⟨hword, hts⟩ := List.forall_mem_cons.1 hts
    have hkind : t.kind = .number ∨ t.kind = .cell := by simpa [Token.isOperand] using ht
    rw [bareFunction?_cons (by obtain h | h := hkind <;> simp [h])] at hcalled
    exact (ih hts hstack hcalled).cons fun _ => hword.grouped_cons (hkind.imp_right .inl)
  | @opening stack ts _ t ht _ ih =>
    obtain ⟨hword, hts⟩ := List.forall_mem_cons.1 hts
    have hstack : ∀ u ∈ t :: stack, u.word.InFormula :=
      List.forall_mem_cons.2 ⟨hword.inFormula, hstack⟩
    obtain hfunction | hparen := ht
    · obtain ⟨o, us, rfl, ho, hcalled⟩ := exists_openParen_of_bareFunction? hfunction hcalled
      obtain ⟨f, hf⟩ := hword.exists_function hfunction
      have hunclosed := ih hts hstack hcalled
      have hopen := (List.forall_mem_cons.1 hts).1.eq_openParen ho
      rw [openGroups_cons_of_ne (by simp [hfunction]), List.map_cons, hopen] at hunclosed
      rw [List.map_cons, List.map_cons, hopen, hf]
      exact hunclosed.function f
    · rw [bareFunction?_cons (by simp [hparen])] at hcalled
      have hunclosed := ih hts hstack hcalled
      rw [openGroups_cons hparen] at hunclosed
      rw [List.map_cons, hword.eq_openParen hparen]
      exact hunclosed.openParen
  | @operator gone left _ _ t ht hgone _ _ ih =>
    obtain ⟨hword, hts⟩ := List.forall_mem_cons.1 hts
    obtain ⟨hgoneFormula, hleft⟩ := List.forall_mem_append.1 hstack
    rw [bareFunction?_cons (by simp [ht])] at hcalled
    have hunclosed := ih hts (List.forall_mem_cons.2 ⟨hword.inFormula, hleft⟩) hcalled
    rw [openGroups_cons_of_ne (by simp [ht])] at hunclosed
    have hbinds := (mayCome_of_inFormula hword.inFormula).binds ht
    rw [openGroups_append fun u hu => kind_ne_openParen_of_yieldsTo hbinds
      (hgoneFormula u hu).text_of_openParen (hgone u hu)]
    exact hunclosed.cons fun _ => hword.grouped_cons (.inr (.inr ht))
  | @group inner below _ _ t o ht hinner ho _ _ ih =>
    obtain ⟨hword, hts⟩ := List.forall_mem_cons.1 hts
    have hbelow := (List.forall_mem_cons.1 (List.forall_mem_append.1 hstack).2).2
    rw [bareFunction?_cons (by simp [ht])] at hcalled
    rw [openGroups_append hinner, openGroups_cons ho, List.map_cons, hword.eq_closeParen ht]
    exact .next .nil (ih hts hbelow hcalled)
  | @call inner below _ _ t o f ht hinner ho hf _ ih =>
    obtain ⟨hword, hts⟩ := List.forall_mem_cons.1 hts
    have hbelow := (List.forall_mem_cons.1 (List.forall_mem_append.1 hstack).2).2
    rw [bareFunction?_cons (by simp [ht])] at hcalled
    rw [openGroups_append hinner, openGroups_cons ho, openGroups_cons_of_ne (by simp [hf]),
      List.map_cons, hword.eq_closeParen ht]
    exact .next .nil (ih hts (List.forall_mem_cons.1 hbelow).2 hcalled)

/-- A formula with a postorder has matching parentheses. -/
theorem grouped_of_toPostorder (hts : ∀ t ∈ ts, t.word.InGrammar)
    (hcalled : bareFunction? ts = none) (h : toPostorder ts = .ok out) : Grouped (ts.map Token.word) := by
  have hunclosed := (converts_of_postorderFrom h).unclosed hts (by simp) hcalled
  rw [show openGroups [] = 0 from rfl] at hunclosed
  cases hunclosed with
  | last h => exact h

end Spreadsheet
