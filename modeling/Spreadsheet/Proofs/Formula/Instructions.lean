import Spreadsheet.Proofs.Formula.Cells
import Spreadsheet.Proofs.Formula.Rearrangement

/-!
# What formulas consist of

Whatever a formula looks like, its tokens are instructions of the machine and parentheses. No
parenthesis gets into the postorder, since it binds less tightly than every operator, so that the
machine is only given instructions.

## Main definitions

* `Word.InFormula` — the words that formulas are read as.

## Main statements

* `inFormula_of_tokenize` — the tokens of every formula.
* `isInstruction_of_postorder` — the tokens of every postorder.
-/

namespace Spreadsheet

variable {formula : String} {ts out : List Token} {t : Token} {w : Word}

/-- The words that formulas are read as: instructions and parentheses. -/
inductive Word.InFormula : Word → Prop
  | instruction {w : Word} (h : w.IsInstruction) : InFormula w
  | openParen : InFormula ⟨.openParen, "("⟩
  | closeParen : InFormula ⟨.closeParen, ")"⟩

/-! ## Tokens -/

theorem Spells.inFormula {cs : List Char} (h : Spells w cs) : w.InFormula := by
  cases h with
  | number n => exact .instruction (.number n)
  | cell c => exact .instruction (.cell c.name)
  | operator op => exact .instruction (.operator op)
  | function f => exact .instruction (.function f)
  | openParen => exact .openParen
  | closeParen => exact .closeParen

/-- The tokens of a formula are instructions and parentheses. -/
theorem inFormula_of_tokenize (h : tokenize formula = .ok ts) (ht : t ∈ ts) :
    t.word.InFormula := by
  obtain ⟨_, hspells⟩ := exists_spelling_of_tokenize h ht
  exact hspells.inFormula

/-! ## Postorder -/

theorem Word.InFormula.isInstruction (h : w.InFormula) (hopen : w.kind ≠ .openParen)
    (hclose : w.kind ≠ .closeParen) : w.IsInstruction := by
  cases h with
  | instruction h => exact h
  | openParen => exact absurd rfl hopen
  | closeParen => exact absurd rfl hclose

theorem Word.InFormula.text_of_openParen (h : w.InFormula) (hkind : w.kind = .openParen) :
    w.text = "(" := by
  cases h with
  | instruction h => cases h <;> cases hkind
  | openParen => rfl
  | closeParen => cases hkind

theorem Word.InFormula.exists_operator (h : w.InFormula) (hkind : w.kind = .operator) :
    ∃ op : BinaryOperator, w.text = op.symbol := by
  cases h with
  | instruction h =>
    cases h with
    | operator op => exact ⟨op, rfl⟩
    | number | cell | function => cases hkind
  | openParen | closeParen => cases hkind

/-- What comes in a formula may come in a conversion. -/
theorem mayCome_of_inFormula (h : t.word.InFormula) : MayCome t where
  binds hkind := by
    obtain ⟨op, hop⟩ := h.exists_operator hkind
    have htext : t.text = op.symbol := hop
    rw [htext]
    cases op <;> decide
  text_open := h.text_of_openParen

/-- The machine is only given instructions. -/
theorem isInstruction_of_postorder (h : postorder formula = .ok out) :
    ∀ t ∈ out, t.word.IsInstruction := by
  obtain ⟨ts, hts, hpost⟩ := exists_tokens_of_postorder h
  have hformula : ∀ t ∈ ts, t.word.InFormula := fun t ht => inFormula_of_tokenize hts ht
  have hperm := perm_toPostorder (fun t ht => mayCome_of_inFormula (hformula t ht)) hpost
  intro t ht
  obtain ⟨hmem, hparen⟩ := List.mem_filter.1 (hperm.mem_iff.1 ht)
  simp only [Token.isParen, Bool.not_eq_true', Bool.or_eq_false_iff, decide_eq_false_iff_not]
    at hparen
  exact (hformula t hmem).isInstruction hparen.1 hparen.2

end Spreadsheet
