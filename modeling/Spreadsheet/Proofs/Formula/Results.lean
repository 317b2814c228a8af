import Spreadsheet.Proofs.Formula.LookupOrder
import Spreadsheet.Proofs.Formula.Outcomes

/-!
# Values of formulas

The value of a tree over texts and finite numbers. A cell alone has the value that is looked up, be
it a text or a number. Every other tree has a decimal: it is a number itself, or its operands have
become numbers, and operators lead from decimals to decimals. So a text can be the value of a formula
only if the formula is a cell and parentheses around it.

## Main definitions

* `Expr.Gives` — how a tree has a value.

## Main statements

* `Expr.gives_of_eval` — the values of trees.
* `text_or_decimal_of_value` — the values of expressions.
-/

namespace Spreadsheet

variable {resolve : String → Traced Value} {v : Value} {a b : Number}

/-! ## Values of trees -/

theorem NumberWord.zeroInRange_value (n : NumberWord) : n.value.ZeroInRange :=
  Decimal.zeroInRange_raiseZero (show -(n.places.length : Int) ≤ 0 by omega)

/-- How a tree has a value: a cell has the value that is looked up, other trees have decimals. -/
inductive Expr.Gives (resolve : String → Traced Value) : Expr → Value → Prop
  | cell {name : String} {v : Value} (h : (resolve name).outcome = .ok v) :
    Gives resolve (.cell name) v
  | decimal {e : Expr} {d : Decimal} (h : d.ZeroInRange) : Gives resolve e (.decimal d)

theorem Expr.Gives.isFinite (hr : ∀ name w, (resolve name).outcome = .ok w → w.IsFinite) {e : Expr}
    (h : e.Gives resolve v) : v.IsFinite := by
  cases h with
  | cell hv => exact hr _ v hv
  | decimal => exact .number ⟨_, rfl⟩

theorem isFinite_of_toNumber (hv : v.IsFinite) (h : v.toNumber = .ok a) : a.IsFinite := by
  have hregular := regular_toNumber hv
  rw [h] at hregular
  cases hregular with
  | ok h => exact h

/-- What an operator leaves behind is a decimal. -/
theorem exists_decimal_of_withinRange {outOfRange : Error} (op : BinaryOperator) (ha : a.IsFinite)
    (hb : b.IsFinite) (h : Expr.withinRange outOfRange (op.apply a b) = .ok v) :
    ∃ d, v = .decimal d ∧ d.ZeroInRange := by
  obtain ⟨x, rfl⟩ := ha
  obtain ⟨y, rfl⟩ := hb
  unfold Expr.withinRange at h
  split at h
  next n hn =>
    obtain ⟨d, rfl, hd⟩ := op.exists_of_apply hn
    exact ⟨d, (Except.ok.inj h).symm, hd⟩
  · cases h
  · cases h

/-- Over texts and finite numbers, a tree that is no cell has a decimal. -/
theorem Expr.gives_of_eval (hr : ∀ name w, (resolve name).outcome = .ok w → w.IsFinite) (e : Expr)
    (h : (e.eval resolve).outcome = .ok v) : e.Gives resolve v := by
  induction e generalizing v with
  | number n =>
    obtain rfl := Except.ok.inj h
    exact .decimal n.zeroInRange_value
  | cell name =>
    obtain ⟨w, hw, h⟩ := Traced.bind_outcome_eq_ok.1 h
    split at h
    · split at h
      · cases h
      · obtain rfl := Except.ok.inj h
        exact .cell hw
    · obtain rfl := Except.ok.inj h
      exact .cell hw
  | call f e ih =>
    obtain ⟨w, hw, h⟩ := Traced.bind_outcome_eq_ok.1 h
    obtain ⟨a, ha, h⟩ := Traced.bind_outcome_eq_ok.1 h
    have hfinite : a.IsFinite := isFinite_of_toNumber ((ih hw).isFinite hr) ha
    obtain ⟨op, hop⟩ := f.exists_apply_eq a
    rw [hop] at h
    obtain ⟨d, rfl, hd⟩ := exists_decimal_of_withinRange op hfinite (isFinite_ofNat 1) h
    exact .decimal hd
  | binary op left right ihl ihr =>
    obtain ⟨u, hu, h⟩ := Traced.bind_outcome_eq_ok.1 h
    obtain ⟨w, hw, h⟩ := Traced.bind_outcome_eq_ok.1 h
    obtain ⟨a, ha, h⟩ := Traced.bind_outcome_eq_ok.1 h
    obtain ⟨b, hb, h⟩ := Traced.bind_outcome_eq_ok.1 h
    have hleft : a.IsFinite := isFinite_of_toNumber ((ihl hu).isFinite hr) ha
    have hright : b.IsFinite := isFinite_of_toNumber ((ihr hw).isFinite hr) hb
    obtain ⟨d, rfl, hd⟩ := exists_decimal_of_withinRange op hleft hright h
    exact .decimal hd

/-! ## Values of expressions -/

/-- Tokens whose postorder is that of a cell are the cell and parentheses. -/
theorem exists_cell_of_postorder {ts out : List Token} {name : String}
    (hts : ∀ t ∈ ts, t.word.InFormula) (hpost : toPostorder ts = .ok out)
    (h : out.map Token.word = (Expr.cell name).postorder) :
    ∃ t, ts.filter (!·.isParen) = [t] ∧ t.kind = .cell ∧ t.text = name := by
  obtain ⟨t, rfl, ht⟩ := List.map_eq_singleton_iff.1 h
  have hperm := perm_toPostorder (fun t ht => mayCome_of_inFormula (hts t ht)) hpost
  exact ⟨t, hperm.symm.eq_singleton, Token.kind_eq_of_word ht⟩

/-- A text is the value of an expression only if the expression is one cell in any number of
parentheses, and then it is the text of this cell. All other values are decimals. -/
theorem text_or_decimal_of_value {expression : String}
    (hr : ∀ name w, (resolve name).outcome = .ok w → w.IsFinite)
    (h : (evaluate resolve expression).outcome = .ok v) :
    (∃ s, v = .text s ∧ ∃ ts t, tokenize (withoutEquals expression) = .ok ts ∧
        ts.filter (!·.isParen) = [t] ∧ t.kind = .cell ∧ (resolve t.text).outcome = .ok v) ∨
      ∃ d, v = .decimal d := by
  unfold evaluate at h
  split at h
  · exact .inr ⟨_, (Except.ok.inj h).symm⟩
  split at h
  · cases h
  split at h
  · exact .inr ⟨_, (Except.ok.inj h).symm⟩
  obtain ⟨out, hout, hrun⟩ := Traced.bind_outcome_eq_ok.1 h
  have hpostorder : postorder (withoutEquals expression) = .ok out := hout
  obtain ⟨ts, hts, hpost⟩ := exists_tokens_of_postorder hpostorder
  obtain ⟨e, he⟩ := Machine.exists_expr_of_run (isInstruction_of_postorder hpostorder) hrun
  rw [Machine.run_postorder he] at hrun
  cases e.gives_of_eval hr hrun with
  | decimal => exact .inr ⟨_, rfl⟩
  | @cell name v hv =>
    cases hr name v hv with
    | number hn =>
      obtain ⟨d, rfl⟩ := hn
      exact .inr ⟨d, rfl⟩
    | text s =>
      obtain ⟨t, hfilter, hkind, rfl⟩ :=
        exists_cell_of_postorder (fun t ht => inFormula_of_tokenize hts ht) hpost he
      exact .inl ⟨s, rfl, ts, t, hts, hfilter, hkind, hv⟩

/-- The text of a cell in two pairs of parentheses. -/
theorem text_or_decimal_of_value_group :
    let resolve := Traced.recording fun _ => .ok (.text "north")
    (∀ name w, (resolve name).outcome = .ok w → w.IsFinite) ∧
      (evaluate resolve "=((a1))").outcome = .ok (.text "north") ∧
      ∃ ts t, tokenize (withoutEquals "=((a1))") = .ok ts ∧ ts.filter (!·.isParen) = [t] ∧
        t.kind = .cell ∧ (resolve t.text).outcome = .ok (.text "north") := by
  intro resolve
  have hfinite : ∀ name w, (resolve name).outcome = .ok w → w.IsFinite := by
    intro name w hw
    obtain rfl := Except.ok.inj hw
    exact .text _
  have hvalue : (evaluate resolve "=((a1))").outcome = .ok (.text "north") := by decide +kernel
  obtain ⟨s, -, htokens⟩ | ⟨d, hd⟩ := text_or_decimal_of_value hfinite hvalue
  · exact ⟨hfinite, hvalue, htokens⟩
  · cases hd

end Spreadsheet
