import Mathlib.Algebra.BigOperators.Group.List.Basic
import Mathlib.Algebra.Ring.Int.Defs
import Spreadsheet.Formula.Evaluate
import Spreadsheet.Proofs.Formula.Alternation
import Spreadsheet.Proofs.Formula.Groups

/-!
# Formulas with values

Neither the postorder nor the machine knows whether an operand or an operator is due. A formula gets
a value if its parentheses match and there is one operand more than there are operators. Where
operands are apart, this leaves no freedom: a group has at least one operator less than operands,
and if it has no more than that, then operands and operators take turns. So a formula with a value
is a phrase of the grammar, unless an operand begins right behind another one.

## Main definitions

* `surplus` — how many operands words have more than operators.

## Main statements

* `Grouped.surplus_le` — matching words whose operands are apart have at most one operand too many.
* `derives_iff_apart` — which formulas with a value are phrases.
* `exists_value_of_juxtaposed` — a formula that has a value and is no phrase.
-/

namespace Spreadsheet

variable {us ws : List Word} {w : Word} {ts : List Token}

/-! ## Counting operands -/

/-- An operand counts one and an operator, which makes one operand of two, minus one. -/
def Token.Kind.weight : Token.Kind → Int
  | number | cell => 1
  | operator => -1
  | function | openParen | closeParen => 0

/-- How many operands words have more than operators. -/
def surplus (ws : List Word) : Int :=
  (ws.map fun w => w.kind.weight).sum

@[simp] theorem surplus_nil : surplus [] = 0 :=
  rfl

@[simp] theorem surplus_cons (w : Word) (ws : List Word) :
    surplus (w :: ws) = w.kind.weight + surplus ws := by
  simp [surplus]

@[simp] theorem surplus_append (us ws : List Word) :
    surplus (us ++ ws) = surplus us + surplus ws := by
  simp [surplus]

theorem surplus_of_perm (h : us.Perm ws) : surplus us = surplus ws :=
  (h.map _).sum_eq

/-- Every tree has one operand more than operators. -/
theorem Expr.surplus_postorder (e : Expr) : surplus e.postorder = 1 := by
  induction e with
  | number n => rfl
  | cell name => rfl
  | call f a ih => simp [postorder, ih, Token.Kind.weight]
  | binary op l r ihl ihr => simp [postorder, ihl, ihr, Token.Kind.weight]

theorem surplus_filter_not_isParen (ts : List Token) :
    surplus ((ts.filter (!·.isParen)).map Token.word) = surplus (ts.map Token.word) := by
  induction ts with
  | nil => rfl
  | cons t ts ih =>
    by_cases ht : t.isParen
    · have hweight : t.word.kind.weight = 0 := by
        simp only [Token.isParen, Bool.or_eq_true, decide_eq_true_eq] at ht
        obtain ht | ht := ht <;> simp [Token.word, ht, Token.Kind.weight]
      rw [List.filter_cons_of_neg (by simp [ht]), List.map_cons, surplus_cons, hweight, Int.zero_add,
        ih]
    · rw [List.filter_cons_of_pos (by simp [ht]), List.map_cons, List.map_cons, surplus_cons,
        surplus_cons, ih]

/-! ## No operand too many -/

/-- What may follow an operand: nothing, or an operator and more operands. -/
def Continues (ws : List Word) : Prop :=
  ws = [] ∨ ∃ (op : BinaryOperator) (us : List Word),
    ws = ⟨.operator, op.symbol⟩ :: us ∧ Alternates us

theorem Alternates.of_continues (p : Phrase .primary) (h : Continues ws) :
    Alternates (p.words ++ ws) := by
  obtain rfl | ⟨op, us, rfl, h⟩ := h
  · simpa using Alternates.operand p
  · exact .operator p op h

theorem surplus_append_le (us : List Word) (hus : surplus us ≤ 1)
    (hoperand : surplus us = 1 → ∃ p : Phrase .primary, p.words = us) (hws : surplus ws ≤ 0)
    (hcontinues : surplus ws = 0 → Continues ws) :
    surplus (us ++ ws) ≤ 1 ∧ (surplus (us ++ ws) = 1 → Alternates (us ++ ws)) := by
  rw [surplus_append]
  refine ⟨by omega, fun hone => ?_⟩
  obtain ⟨p, rfl⟩ := hoperand (by omega)
  exact .of_continues p (hcontinues (by omega))

/-- Matching words whose operands are apart have no more than one operand too many, and if they have
it, operands and operators take turns. Words that no operand begins have none too many, and if they
have none too few, they may follow an operand. -/
theorem Grouped.surplus_le (h : Grouped ws) (ha : Apart ws) :
    (surplus ws ≤ 1 ∧ (surplus ws = 1 → Alternates ws)) ∧
      ((∀ w ∈ ws.head?, w.kind.beginsOperand = false) →
        surplus ws ≤ 0 ∧ (surplus ws = 0 → Continues ws)) := by
  induction h with
  | nil => simp [Continues]
  | @number n ws h ih =>
    obtain ⟨hws, hcontinues⟩ := (ih ha.tail).2 (ha.head rfl)
    refine ⟨?_, fun hbegins => absurd (hbegins _ rfl) (by simp [Token.Kind.beginsOperand])⟩
    exact surplus_append_le [⟨.number, n.text⟩] (by simp [Token.Kind.weight])
      (fun _ => ⟨.number n, rfl⟩) hws hcontinues
  | @cell c ws h ih =>
    obtain ⟨hws, hcontinues⟩ := (ih ha.tail).2 (ha.head rfl)
    refine ⟨?_, fun hbegins => absurd (hbegins _ rfl) (by simp [Token.Kind.beginsOperand])⟩
    exact surplus_append_le [⟨.cell, c.name⟩] (by simp [Token.Kind.weight])
      (fun _ => ⟨.cell c, rfl⟩) hws hcontinues
  | @operator op ws h ih =>
    obtain ⟨⟨hws, halternates⟩, -⟩ := ih ha.tail
    simp only [surplus_cons, Token.Kind.weight]
    refine ⟨⟨by omega, fun hone => by omega⟩, fun _ => ⟨by omega, fun hzero => ?_⟩⟩
    exact .inr ⟨op, ws, rfl, halternates (by omega)⟩
  | @group us ws hu h ihu ih =>
    have hclosed := ha.tail.right
    obtain ⟨⟨hus, halternates⟩, -⟩ := ihu ha.tail.left
    obtain ⟨hws, hcontinues⟩ := (ih hclosed.tail).2 (hclosed.head rfl)
    refine ⟨?_, fun hbegins => absurd (hbegins _ rfl) (by simp [Token.Kind.beginsOperand])⟩
    have hle := surplus_append_le (⟨.openParen, "("⟩ :: us ++ [⟨.closeParen, ")"⟩])
      (by simpa [Token.Kind.weight] using hus) (fun hone => ?_) hws hcontinues
    · simpa using hle
    · obtain ⟨e, he⟩ := (halternates (by simpa [Token.Kind.weight] using hone)).exists_phrase
      exact ⟨.group e, by simp [Phrase.words, he]⟩
  | @call f us ws hu h ihu ih =>
    have hclosed := ha.tail.tail.right
    obtain ⟨⟨hus, halternates⟩, -⟩ := ihu ha.tail.tail.left
    obtain ⟨hws, hcontinues⟩ := (ih hclosed.tail).2 (hclosed.head rfl)
    refine ⟨?_, fun hbegins => absurd (hbegins _ rfl) (by simp [Token.Kind.beginsOperand])⟩
    have hle := surplus_append_le
      (⟨.function, f.symbol⟩ :: ⟨.openParen, "("⟩ :: us ++ [⟨.closeParen, ")"⟩])
      (by simpa [Token.Kind.weight] using hus) (fun hone => ?_) hws hcontinues
    · simpa using hle
    · obtain ⟨e, he⟩ := (halternates (by simpa [Token.Kind.weight] using hone)).exists_phrase
      exact ⟨.call f e, by simp [Phrase.words, he]⟩

/-! ## Formulas with values -/

/-- The tokens of a formula with a value: their parentheses match, and there is one operand more
than there are operators. -/
theorem exists_tokens_of_value {resolve : String → Traced Value} {formula : String} {v : Value}
    (h : (do
      let tokens ← postorder formula
      Machine.run resolve tokens : Traced Value).outcome = .ok v) :
    ∃ ts, tokenize formula = .ok ts ∧ Grouped (ts.map Token.word) ∧
      surplus (ts.map Token.word) = 1 := by
  obtain ⟨out, hout, hrun⟩ := Traced.bind_outcome_eq_ok.1 h
  obtain ⟨ts, hts, hpost⟩ := exists_tokens_of_postorder hout
  obtain ⟨e, he⟩ := Machine.exists_expr_of_run (isInstruction_of_postorder hout) hrun
  have hgrammar : ∀ t ∈ ts, t.word.InGrammar := fun t ht => inGrammar_of_tokenize hts ht
  have hperm : out.Perm (ts.filter (!·.isParen)) :=
    perm_toPostorder (fun t ht => mayCome_of_inFormula (hgrammar t ht).inFormula) hpost
  refine ⟨ts, hts, grouped_of_toPostorder hgrammar (eq_of_tokenize hts).2 hpost, ?_⟩
  calc surplus (ts.map Token.word)
      = surplus ((ts.filter (!·.isParen)).map Token.word) := (surplus_filter_not_isParen ts).symm
    _ = surplus (out.map Token.word) := (surplus_of_perm (hperm.map _)).symm
    _ = 1 := by rw [he, e.surplus_postorder]

/-- A formula with a value has matching parentheses, and it is a phrase of the grammar if and only
if nowhere in it an operand begins right behind another one. -/
theorem derives_iff_apart {resolve : String → Traced Value} {expression : String} {v : Value}
    (hblank : Text.isBlankText expression = false)
    (hliteral : Decimal.ofLiteral? expression = none)
    (h : (evaluate resolve expression).outcome = .ok v) :
    ∃ ts, tokenize (withoutEquals expression) = .ok ts ∧ Grouped (ts.map Token.word) ∧
      ((∃ e : Phrase .comparison, e.words = ts.map Token.word) ↔ Apart (ts.map Token.word)) := by
  have hvalue : (do
      let tokens ← postorder (withoutEquals expression)
      Machine.run resolve tokens : Traced Value).outcome = .ok v := by
    unfold evaluate at h
    simp only [hblank, hliteral, Bool.false_eq_true, if_false] at h
    split at h
    · cases h
    · exact h
  obtain ⟨ts, hts, hgrouped, hone⟩ := exists_tokens_of_value hvalue
  refine ⟨ts, hts, hgrouped, fun ⟨e, he⟩ => he ▸ e.apart_words, fun hapart => ?_⟩
  exact ((hgrouped.surplus_le hapart).1.2 hone).exists_phrase

/-- The formula `inc(A1) * (2 + 3)` over a cell that holds one. -/
theorem derives_iff_apart_product :
    (evaluate (fun name => .lookup name (.ok (.decimal (.ofNat 1)))) "=inc(A1)*(2+3)").outcome =
        .ok (.decimal ⟨false, 10, 0⟩) ∧
      ∃ ts, tokenize (withoutEquals "=inc(A1)*(2+3)") = .ok ts ∧ Grouped (ts.map Token.word) ∧
        ((∃ e : Phrase .comparison, e.words = ts.map Token.word) ↔ Apart (ts.map Token.word)) := by
  have hvalue :
      (evaluate (fun name => .lookup name (.ok (.decimal (.ofNat 1)))) "=inc(A1)*(2+3)").outcome =
        .ok (.decimal ⟨false, 10, 0⟩) := by
    decide +kernel
  exact ⟨hvalue, derives_iff_apart (by decide +kernel) (by decide +kernel) hvalue⟩

/-- The operator of `1(2)+` finds its operands, but both stand before it, so it is no phrase. -/
theorem exists_value_of_juxtaposed :
    Text.isBlankText "1(2)+" = false ∧ Decimal.ofLiteral? "1(2)+" = none ∧
      (evaluate (fun _ => pure .zero) "1(2)+").outcome = .ok (.decimal ⟨false, 3, 0⟩) ∧
      ∀ ts, tokenize (withoutEquals "1(2)+") = .ok ts →
        ¬ ∃ e : Phrase .comparison, e.words = ts.map Token.word := by
  refine ⟨by decide +kernel, by decide +kernel, by decide +kernel, ?_⟩
  rintro ts hts ⟨e, he⟩
  have hwords : ts.map Token.word = [⟨.number, "1"⟩, ⟨.openParen, "("⟩, ⟨.number, "2"⟩,
      ⟨.closeParen, ")"⟩, ⟨.operator, "+"⟩] := by
    have htokens : tokenize (withoutEquals "1(2)+") = .ok [⟨.number, "1", 0⟩, ⟨.openParen, "(", 1⟩,
        ⟨.number, "2", 2⟩, ⟨.closeParen, ")", 3⟩, ⟨.operator, "+", 4⟩] := by
      decide +kernel
    obtain rfl := Except.ok.inj (htokens.symm.trans hts)
    rfl
  have hapart := e.apart_words
  rw [he, hwords] at hapart
  exact absurd hapart (by decide)

end Spreadsheet
