import Spreadsheet.Proofs.Formula.LeadingEquals
import Spreadsheet.Proofs.Grid.Acyclic

/-!
# Cells and their formulas

The value of a cell is the value of its formula, and conversely. Both are computed in different
surroundings: a reference of the cell is resolved below the chain that reached the cell, the same
reference of the formula below an empty chain. A value does not depend on this, since no cell with a
value can be reached from itself.

## Main statements

* `Grid.resolveBelow_eq_of_value` — a value below one chain is the value below every other one.
* `Grid.formulas_hold` — a cell and its formula have the same values.
* `Grid.formulas_hold_not_below_zero` — the room that the cell itself takes up in a chain.
-/

namespace Spreadsheet

namespace Grid

open Relation (ReflTransGen TransGen)

variable {g : Grid} {limit limit' : Int} {more more' : Nat} {visited visited' : List String}
  {name : String} {v : Value}

theorem hasCell_upper : g.HasCell (Text.upper name) ↔ g.HasCell name := by
  simp only [HasCell, CellName.split_upper]

/-! ## Values and chains -/

/-- If a cell has a value below some chain, it has it below every chain that none of the cells reached
from it belongs to, and if the chain may grow by more cells. -/
theorem resolveBelow_eq_of_value (h : (g.resolveBelow limit more visited name).outcome = .ok v)
    (hmore : more ≤ more')
    (hapart : ∀ m ∈ visited', ¬ ReflTransGen g.RefersTo (Text.upper name) m) :
    g.resolveBelow limit' more' visited' name = g.resolveBelow limit more visited name := by
  induction more generalizing more' visited visited' name v with
  | zero =>
    obtain ⟨-, -, fuel, hfuel, -⟩ := eval_of_value h
    cases hfuel
  | succ more ih =>
    obtain ⟨hmem, -, fuel, hfuel, heval⟩ := eval_of_value h
    obtain rfl : more = fuel := Nat.succ.inj hfuel
    obtain ⟨more', rfl⟩ := Nat.exists_eq_add_of_le' (Nat.le_trans (Nat.le_add_left 1 more) hmore)
    have hmem' : Text.upper name ∉ visited' := fun hmem' => hapart _ hmem' .refl
    rw [resolveBelow_succ hmem, resolveBelow_succ hmem']
    refine bind_congr fun _ => Traced.bind_congr_of_outcome fun entry hentry => ?_
    cases hentry
    refine Entry.eval_congr fun n hn => ?_
    obtain ⟨w, hw⟩ := Entry.exists_value_of_eval heval hn
    refine ih hw (by omega) fun m hm hreach => ?_
    obtain hm | hm := List.mem_append.1 hm
    · exact hapart m hm (reaches_of_needs hn hreach)
    -- the cell itself is in the chain of the cells below it
    · obtain ⟨hnot, -⟩ := reachable_of_value hw hreach
      exact hnot (List.mem_append_right _ hm)

/-- A cell with a value has the value that its entry has over the grid. -/
theorem eval_of_resolve (h : g.resolve limit name = .ok v) :
    ((g.entry (Text.upper name)).eval (g.resolveTraced limit)).outcome = .ok v := by
  obtain ⟨-, -, fuel, hfuel, heval⟩ := eval_of_value h
  rw [← heval]
  refine congrArg Traced.outcome (Entry.eval_congr fun n hn => ?_)
  obtain ⟨w, hw⟩ := Entry.exists_value_of_eval heval hn
  exact resolveBelow_eq_of_value hw (by omega) (by simp)

/-- If the entry of a cell has a value over the grid, then the cell has it, for which chains need room
for one cell more. -/
theorem resolve_of_eval (hcell : g.HasCell name)
    (h : ((g.entry (Text.upper name)).eval (g.resolveTraced limit)).outcome = .ok v) :
    g.resolve (max limit 0 + 1) name = .ok v := by
  have hmore : (max limit 0 + 1).toNat = limit.toNat + 1 := by omega
  unfold resolve resolveTraced
  rw [hmore, resolveBelow_succ List.not_mem_nil]
  refine Traced.bind_outcome_eq_ok.2 ⟨(), checkName_eq_ok.2 (hasCell_upper.2 hcell), ?_⟩
  refine Traced.bind_outcome_eq_ok.2 ⟨_, rfl, ?_⟩
  rw [← h]
  refine congrArg Traced.outcome (Entry.eval_congr fun n hn => ?_)
  obtain ⟨w, hw⟩ := Entry.exists_value_of_eval h hn
  refine resolveBelow_eq_of_value hw (Nat.le_refl _) fun m hm hreach => ?_
  obtain rfl : m = Text.upper name := List.mem_singleton.1 hm
  -- a reference back to the cell would close a cycle below a cell with a value
  obtain ⟨-, -, hcycle⟩ := reachable_of_value hw hreach
  have hrefers := refersTo_of_needs hn
  rw [upper_eq_self_of_refersTo hrefers] at hreach
  exact hcycle (TransGen.head' hrefers hreach)

/-- A cell and the formula in its text have the same values. The formula has every value that the cell
has; and the cell has every value that the formula has, if chains may be longer by the cell itself. In
the same way a cell that refers to another one has the value of that one. -/
theorem formulas_hold (rows columns limit : Int) (texts : CellTexts) (name text : String) (v : Value)
    (hcell : (ofTexts rows columns texts).HasCell name)
    (htext : texts.get? (Text.upper name) = some text) :
    (text.toList.head? = some '=' → CellName.aliasTarget? text = none →
      ((ofTexts rows columns texts).resolve limit name = .ok v →
        (ofTexts rows columns texts).evaluate limit text = .ok v) ∧
      ((ofTexts rows columns texts).evaluate limit text = .ok v →
        (ofTexts rows columns texts).resolve (max limit 0 + 1) name = .ok v)) ∧
    ∀ target, CellName.aliasTarget? text = some target →
      ((ofTexts rows columns texts).resolve limit name = .ok v →
        (ofTexts rows columns texts).resolve limit target = .ok v) ∧
      ((ofTexts rows columns texts).resolve limit target = .ok v →
        (ofTexts rows columns texts).resolve (limit + 1) name = .ok v) := by
  have hentry : (ofTexts rows columns texts).entry (Text.upper name) = .ofText text :=
    entry_of_text? ((text?_ofTexts_upper rows columns texts name).trans htext)
  refine ⟨fun hequals hnone => ?_, fun target htarget => ?_⟩
  · obtain ⟨body, hbody⟩ := List.head?_eq_some_iff.1 hequals
    rw [Entry.ofText_of_equals hbody, hnone] at hentry
    have heval : (ofTexts rows columns texts).evaluate limit text =
        ((Entry.formula (String.ofList body)).eval
          ((ofTexts rows columns texts).resolveTraced limit)).outcome :=
      congrArg Traced.outcome (evaluate_of_equals _ hbody)
    rw [heval, show Entry.formula (String.ofList body) = _ from hentry.symm]
    exact ⟨eval_of_resolve, resolve_of_eval hcell⟩
  · obtain ⟨letters, digits, final, hbody, -⟩ := CellName.aliasTarget?_eq_some htarget
    rw [Entry.ofText_of_equals hbody, htarget] at hentry
    have heval : (ofTexts rows columns texts).resolve limit target =
        (((ofTexts rows columns texts).entry (Text.upper name)).eval
          ((ofTexts rows columns texts).resolveTraced limit)).outcome := by
      rw [hentry]
      rfl
    refine ⟨fun h => heval.trans (eval_of_resolve h), fun h => ?_⟩
    have hpos : 0 < limit.toNat := by
      obtain ⟨-, -, fuel, hfuel, -⟩ := eval_of_value h
      omega
    have hroom : max limit 0 = limit := by omega
    have hresolve := resolve_of_eval hcell (heval.symm.trans h)
    rwa [hroom] at hresolve

/-- A cell with a formula over a cell that refers to a third one. -/
def relay : CellTexts :=
  .ofList [("A1", "=inc(B1)"), ("B1", "=c1"), ("C1", "4")]

/-- `A1` and its formula have the value five, and `B1` has that of `C1`. -/
theorem formulas_hold_relay :
    (ofTexts 1 3 relay).HasCell "a1" ∧ (ofTexts 1 3 relay).HasCell "b1" ∧
      (ofTexts 1 3 relay).resolve 3 "a1" = .ok (.decimal ⟨false, 5, 0⟩) ∧
      (ofTexts 1 3 relay).evaluate 3 "=inc(B1)" = .ok (.decimal ⟨false, 5, 0⟩) ∧
      (ofTexts 1 3 relay).resolve 1 "C1" = .ok (.decimal ⟨false, 4, 0⟩) ∧
      (ofTexts 1 3 relay).resolve (1 + 1) "b1" = .ok (.decimal ⟨false, 4, 0⟩) := by
  have hfirst : (ofTexts 1 3 relay).HasCell "a1" := ⟨1, 1, by decide +kernel⟩
  have hsecond : (ofTexts 1 3 relay).HasCell "b1" := ⟨1, 2, by decide +kernel⟩
  have hvalue : (ofTexts 1 3 relay).resolve 3 "a1" = .ok (.decimal ⟨false, 5, 0⟩) := by
    decide +kernel
  have htarget : (ofTexts 1 3 relay).resolve 1 "C1" = .ok (.decimal ⟨false, 4, 0⟩) := by
    decide +kernel
  obtain ⟨hformula, -⟩ := formulas_hold 1 3 3 relay "a1" "=inc(B1)" _ hfirst (by decide +kernel)
  obtain ⟨-, hreference⟩ := formulas_hold 1 3 1 relay "b1" "=c1" _ hsecond (by decide +kernel)
  exact ⟨hfirst, hsecond, hvalue, (hformula (by decide) (by decide +kernel)).1 hvalue, htarget,
    (hreference "C1" (by decide +kernel)).2 htarget⟩

/-- A formula without references has a value even if chains may have fewer cells than none; its cell
has none if they may have one cell more, which is still not one. -/
theorem formulas_hold_not_below_zero :
    (ofTexts 1 1 (.ofList [("A1", "=1+2")])).HasCell "A1" ∧
      (ofTexts 1 1 (.ofList [("A1", "=1+2")])).text? "A1" = some "=1+2" ∧
      CellName.aliasTarget? "=1+2" = none ∧
      (ofTexts 1 1 (.ofList [("A1", "=1+2")])).evaluate (-1) "=1+2" =
        .ok (.decimal ⟨false, 3, 0⟩) ∧
      (ofTexts 1 1 (.ofList [("A1", "=1+2")])).resolve (-1 + 1) "A1" ≠
        .ok (.decimal ⟨false, 3, 0⟩) := by
  refine ⟨⟨1, 1, ?_⟩, ?_, ?_, ?_, ?_⟩ <;> decide +kernel

end Grid

end Spreadsheet
