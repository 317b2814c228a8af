import Spreadsheet.Proofs.Grid.Dependence
import Spreadsheet.Proofs.Grid.Equations
import Spreadsheet.Proofs.Grid.Literals

/-!
# Pasting values

If the text of a cell is replaced by the literal of the value that the cell has, then all cells with
values keep them. The references of the cell are gone, so chains become shorter; and wherever the
cell is reached, it has its value at once, which is the one it had below every chain.

## Main statements

* `Grid.outcome_eq_of_pasted` — a value below a chain is the same after the replacement.
* `Grid.resolve_of_pasted` — the values of cells after the replacement.
-/

namespace Spreadsheet

namespace Grid

variable {g g' : Grid} {limit : Int} {more : Nat} {visited : List String} {m n name text : String}
  {v V : Value}

theorem resolveBelow_upper : g.resolveBelow limit more visited (Text.upper name) =
    g.resolveBelow limit more visited name := by
  cases more <;> simp only [resolveBelow, Text.upper_upper]

/-- A value that a cell has below some chain is the one that it has over the grid, whatever the case
of its name. -/
theorem eq_of_values (hm : g.resolve limit m = .ok v) (hmore : more ≤ limit.toNat)
    (h : (g.resolveBelow limit more visited name).outcome = .ok V)
    (hname : Text.upper name = Text.upper m) : V = v := by
  have hbelow : g.resolve limit name = .ok V := by
    rw [← h]
    exact congrArg Traced.outcome (resolveBelow_eq_of_value h hmore (by simp))
  have hsame : g.resolve limit name = g.resolve limit m := by
    unfold resolve resolveTraced
    rw [← resolveBelow_upper, hname, resolveBelow_upper]
  exact Except.ok.inj (hbelow.symm.trans (hsame.trans hm))

/-- What has a value below a chain has the same value below the same chain of another grid, if the
grids differ only in a cell whose entry there is the value that it has here. -/
theorem outcome_eq_of_pasted (hrows : g'.rows = g.rows) (hcolumns : g'.columns = g.columns)
    (hm : g.resolve limit m = .ok v) (hpasted : g'.entry (Text.upper m) = .literal v)
    (hentry : ∀ k, Text.upper k ≠ Text.upper m → g'.entry k = g.entry k) (hmore : more ≤ limit.toNat)
    (h : (g.resolveBelow limit more visited name).outcome = .ok V) :
    (g'.resolveBelow limit more visited name).outcome = .ok V := by
  induction more generalizing visited name V with
  | zero =>
    obtain ⟨-, -, fuel, hfuel, -⟩ := eval_of_value h
    cases hfuel
  | succ more ih =>
    obtain ⟨hmem, hcell, fuel, hfuel, heval⟩ := eval_of_value h
    obtain rfl : more = fuel := Nat.succ.inj hfuel
    have hcheck : g'.checkName (Text.upper name) = .ok () :=
      (checkName_congr hrows hcolumns).trans (checkName_eq_ok.2 hcell)
    rw [resolveBelow_succ hmem, Traced.bind_outcome_eq_ok]
    refine ⟨(), hcheck, Traced.bind_outcome_eq_ok.2 ⟨_, rfl, ?_⟩⟩
    by_cases hname : Text.upper name = Text.upper m
    · obtain rfl := eq_of_values hm hmore h hname
      rw [hname, hpasted]
      rfl
    · rw [hentry _ (by rwa [Text.upper_upper]), ← heval]
      refine Entry.outcome_eval_congr fun n hn => ?_
      obtain ⟨w, hw⟩ := Entry.exists_value_of_eval heval hn
      exact (ih (by omega) hw).trans hw.symm

theorem text?_insert {rows columns : Int} {texts : CellTexts} (k : String) :
    (ofTexts rows columns (texts.insert m text)).text? k =
      if Text.upper k = m then some text else (ofTexts rows columns texts).text? k :=
  OrderedMap.get?_insert texts m text (Text.upper k)

/-- All cells with values keep them if the text of one of them is replaced by the literal of its
value: a text by itself, and a number by its scientific form, if it is zero or in the range of
literals. -/
theorem resolve_of_pasted (rows columns limit : Int) (texts : CellTexts) (m n : String) (v V : Value)
    (text : String) (hliteral : v.Literal text)
    (hm : (ofTexts rows columns texts).resolve limit m = .ok v)
    (hn : (ofTexts rows columns texts).resolve limit n = .ok V) :
    (ofTexts rows columns (texts.insert (Text.upper m) text)).resolve limit n = .ok V := by
  have hpasted : (ofTexts rows columns (texts.insert (Text.upper m) text)).entry (Text.upper m) =
      .literal v := by
    refine (entry_of_text? ?_).trans (hliteral.ofText_eq (storable_of_value hm))
    rw [text?_insert, Text.upper_upper, if_pos rfl]
  refine outcome_eq_of_pasted (g := ofTexts rows columns texts) rfl rfl hm hpasted (fun k hk => ?_)
    (Nat.le_refl _) hn
  rw [entry, entry, text?_insert, if_neg hk]

/-- A product that is too small to be written without an exponent, and a cell that refers to it. -/
def products : CellTexts :=
  .ofList [("A1", "=b1*b1"), ("B1", "2.5e-4"), ("C1", "=inc(A1)")]

/-- `A1` is read in `C1` as a number, whether it is computed or stored. -/
theorem resolve_of_pasted_products :
    (ofTexts 1 3 products).resolve 3 "a1" = .ok (.decimal ⟨false, 625, -10⟩) ∧
      (Value.decimal ⟨false, 625, -10⟩).Literal "6.25E-8" ∧
      (ofTexts 1 3 products).resolve 3 "C1" = .ok (.decimal ⟨false, 10000000625, -10⟩) ∧
      (ofTexts 1 3 (products.insert (Text.upper "a1") "6.25E-8")).resolve 3 "C1" =
        .ok (.decimal ⟨false, 10000000625, -10⟩) := by
  have hliteral : (Value.decimal ⟨false, 625, -10⟩).Literal "6.25E-8" := by
    have hwritten : "6.25E-8" = Decimal.toScientific ⟨false, 625, -10⟩ := by decide +kernel
    rw [hwritten]
    exact .decimal _ (.inr (by decide +kernel))
  have hpasted : (ofTexts 1 3 products).resolve 3 "a1" = .ok (.decimal ⟨false, 625, -10⟩) := by
    decide +kernel
  have hvalue : (ofTexts 1 3 products).resolve 3 "C1" =
      .ok (.decimal ⟨false, 10000000625, -10⟩) := by
    decide +kernel
  exact ⟨hpasted, hliteral, hvalue,
    resolve_of_pasted 1 3 3 products "a1" "C1" _ _ _ hliteral hpasted hvalue⟩

end Grid

end Spreadsheet
