import Spreadsheet.Proofs.Formula.Conversion

/-!
# Operands in postorder

Only functions, operators and opening parentheses wait, so operands are put out in the order in
which they are read and none of them is lost.

## Main statements

* `Converts.filter_isOperand` — the operands that are put out.
* `mem_toPostorder_of_cell` — the cells of the postorder of tokens.
-/

namespace Spreadsheet

variable {stack ts out : List Token}

theorem filter_isOperand_eq_nil (hs : ∀ t ∈ stack, t.isOperand = false) :
    stack.filter Token.isOperand = [] :=
  List.filter_eq_nil_iff.2 fun t ht => by simp [hs t ht]

/-- Operands keep their places. -/
theorem Converts.filter_isOperand (h : Converts stack ts out)
    (hs : ∀ t ∈ stack, t.isOperand = false) :
    out.filter Token.isOperand = ts.filter Token.isOperand := by
  induction h with
  | ended => exact filter_isOperand_eq_nil hs
  | operand ht _ ih => rw [List.filter_cons_of_pos ht, List.filter_cons_of_pos ht, ih hs]
  | @opening _ _ _ t ht _ ih =>
    have ht : t.isOperand = false := by
      obtain ht | ht := ht <;> simp [Token.isOperand, ht]
    rw [List.filter_cons_of_neg (by simp [ht])]
    exact ih (List.forall_mem_cons.2 ⟨ht, hs⟩)
  | @operator _ _ _ _ t ht _ _ _ ih =>
    obtain ⟨hgone, hleft⟩ := List.forall_mem_append.1 hs
    have ht : t.isOperand = false := by simp [Token.isOperand, ht]
    rw [List.filter_append, filter_isOperand_eq_nil hgone, List.nil_append,
      List.filter_cons_of_neg (by simp [ht]), ih (List.forall_mem_cons.2 ⟨ht, hleft⟩)]
  | @group _ _ _ _ t _ ht _ _ _ _ ih =>
    obtain ⟨hinner, hbelow⟩ := List.forall_mem_append.1 hs
    have ht : t.isOperand = false := by simp [Token.isOperand, ht]
    rw [List.filter_append, filter_isOperand_eq_nil hinner, List.nil_append,
      List.filter_cons_of_neg (by simp [ht]), ih (List.forall_mem_cons.1 hbelow).2]
  | @call _ _ _ _ t _ f ht _ _ hf _ ih =>
    obtain ⟨hinner, hbelow⟩ := List.forall_mem_append.1 hs
    have ht : t.isOperand = false := by simp [Token.isOperand, ht]
    have hf : f.isOperand = false := by simp [Token.isOperand, hf]
    rw [List.filter_append, filter_isOperand_eq_nil hinner, List.nil_append,
      List.filter_cons_of_neg (by simp [hf]), List.filter_cons_of_neg (by simp [ht]),
      ih (List.forall_mem_cons.1 (List.forall_mem_cons.1 hbelow).2).2]

/-- The cells of the postorder of tokens are those of the tokens. -/
theorem mem_toPostorder_of_cell {t : Token} (h : toPostorder ts = .ok out) (ht : t.kind = .cell) :
    t ∈ out ↔ t ∈ ts := by
  have hoperand : t.isOperand := by simp [Token.isOperand, ht]
  have hfilter : out.filter Token.isOperand = ts.filter Token.isOperand :=
    (converts_of_postorderFrom h).filter_isOperand fun u hu => absurd hu List.not_mem_nil
  have hmem : ∀ l : List Token, t ∈ l.filter Token.isOperand ↔ t ∈ l := fun l => by
    simp [List.mem_filter, hoperand]
  rw [← hmem out, hfilter, hmem ts]

theorem exists_tokens_of_postorder {formula : String} (h : postorder formula = .ok out) :
    ∃ ts, tokenize formula = .ok ts ∧ toPostorder ts = .ok out := by
  unfold postorder at h
  cases hts : tokenize formula with
  | error e =>
    rw [hts] at h
    cases h
  | ok ts =>
    rw [hts] at h
    exact ⟨ts, rfl, h⟩

end Spreadsheet
