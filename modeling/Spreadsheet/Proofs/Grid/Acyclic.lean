import Spreadsheet.Proofs.Grid.References

/-!
# Values and cycles

Each branch of a descent keeps its own chain and nothing is remembered between branches. Still, if a
cell has a value, none of the cells that can be reached from it is in its chain; a cycle through the
cell itself would lead back into the chain of the cells below it.

## Main statements

* `Grid.reachable_of_value` — the cells that can be reached from a cell with a value.
* `Grid.acyclic_of_value` — they lie on no cycle, and in the grid.
-/

namespace Spreadsheet.Grid

open Relation (ReflTransGen TransGen)

variable {g : Grid} {limit : Int} {more : Nat} {visited : List String} {name m : String} {v : Value}

/-- Below a chain, a cell with a value reaches no cell of the chain, no cycle and no cell outside of
the grid. -/
theorem reachable_of_value (h : (g.resolveBelow limit more visited name).outcome = .ok v)
    (hm : ReflTransGen g.RefersTo (Text.upper name) m) :
    m ∉ visited ∧ g.HasCell m ∧ ¬ TransGen g.RefersTo m m := by
  induction more generalizing visited name v m with
  | zero =>
    obtain ⟨-, -, fuel, hfuel, -⟩ := references_have_values h
    cases hfuel
  | succ more ih =>
    obtain ⟨hmem, hcell, fuel, hfuel, hvalues⟩ := references_have_values h
    obtain rfl : more = fuel := Nat.succ.inj hfuel
    have hbelow : ∀ n k, g.RefersTo (Text.upper name) n → ReflTransGen g.RefersTo n k →
        k ∉ visited ++ [Text.upper name] ∧ g.HasCell k ∧ ¬ TransGen g.RefersTo k k := by
      intro n k hn hk
      obtain ⟨w, hw⟩ := hvalues n hn
      exact ih hw ((upper_eq_self_of_refersTo hn).symm ▸ hk)
    obtain heq | ⟨n, hn, hnm⟩ := hm.cases_head
    · subst heq
      refine ⟨hmem, hcell, fun hcycle => ?_⟩
      obtain ⟨n, hn, hback⟩ := TransGen.head'_iff.1 hcycle
      exact (hbelow n _ hn hback).1 (List.mem_append_right _ (List.mem_singleton_self _))
    · obtain ⟨hnot, hcell, hcycle⟩ := hbelow n m hn hnm
      exact ⟨fun hvisited => hnot (List.mem_append_left _ hvisited), hcell, hcycle⟩

/-- From a cell with a value, references lead to no cycle and not out of the grid. -/
theorem acyclic_of_value {rows columns limit : Int} {texts : CellTexts} {name : String} {v : Value}
    (h : (ofTexts rows columns texts).resolve limit name = .ok v) (m : String)
    (hm : ReflTransGen (ofTexts rows columns texts).RefersTo (Text.upper name) m) :
    ¬ TransGen (ofTexts rows columns texts).RefersTo m m ∧
      (ofTexts rows columns texts).HasCell m := by
  obtain ⟨-, hcell, hcycle⟩ := reachable_of_value h hm
  exact ⟨hcycle, hcell⟩

/-- A cell that refers to another one twice, once through a third. -/
def diamond : CellTexts :=
  .ofList [("A1", "=b1 - C1"), ("B1", "=C1"), ("C1", "=inc(d2)*2"), ("D2", "")]

/-- In the diamond `A1` has a value, and `C1` can be reached from it. -/
theorem acyclic_of_value_diamond :
    (ofTexts 2 4 diamond).resolve 4 "a1" = .ok (.decimal ⟨false, 0, 0⟩) ∧
      ReflTransGen (ofTexts 2 4 diamond).RefersTo "A1" "C1" ∧
      ¬ TransGen (ofTexts 2 4 diamond).RefersTo "C1" "C1" ∧ (ofTexts 2 4 diamond).HasCell "C1" := by
  have hvalue : (ofTexts 2 4 diamond).resolve 4 "a1" = .ok (.decimal ⟨false, 0, 0⟩) := by
    decide +kernel
  have hupper : Text.upper "a1" = "A1" := by
    decide +kernel
  have htokens : tokenize (String.ofList "b1 - C1".toList) =
      .ok [⟨.cell, "B1", 0⟩, ⟨.operator, "-", 2⟩, ⟨.cell, "C1", 3⟩] := by
    decide +kernel
  have hfirst : (ofTexts 2 4 diamond).RefersTo "A1" "B1" :=
    ⟨"=b1 - C1", by decide +kernel, .inr ⟨_, _, rfl, htokens, ⟨.cell, "B1", 0⟩, by simp⟩⟩
  have hsecond : (ofTexts 2 4 diamond).RefersTo "B1" "C1" :=
    ⟨"=C1", by decide +kernel, .inl (by decide +kernel)⟩
  have hreach : ReflTransGen (ofTexts 2 4 diamond).RefersTo "A1" "C1" :=
    .tail (.single hfirst) hsecond
  exact ⟨hvalue, hreach, acyclic_of_value hvalue "C1" (hupper ▸ hreach)⟩

end Spreadsheet.Grid
