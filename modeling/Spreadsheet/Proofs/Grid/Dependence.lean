import Spreadsheet.Proofs.Grid.References
import Spreadsheet.Sheet.Edit

/-!
# What a cell depends on

Two grids of one extent give a cell the same outcome, if they hold the same texts where references
lead from the cell. The references are those of the first grid only; that the second one has the same
is a consequence. Hence a text that no reference leads to may be stored, replaced or erased without
an effect on the cell.

## Main definitions

* `Sheet.SameExcept` — sheets that differ at most in the texts of some cells.
* `Edit.Concerns` — the edits that set or clear one of these cells.

## Main statements

* `Grid.resolveBelow_congr_entry`, `Grid.resolveBelow_congr` — the outcome of a cell in two grids,
  below any chain.
* `Sheet.sameExcept_editAll` — what several edits leave as it is.
* `Grid.resolve_of_agree` — what a cell does not depend on.
-/

namespace Spreadsheet

namespace Grid

open Relation (ReflTransGen)

variable {g g' : Grid} {limit : Int} {more : Nat} {visited : List String} {name m n : String}

/-! ## Two grids -/

theorem entry_congr (h : g'.text? m = g.text? m) : g'.entry m = g.entry m := by
  rw [entry, entry, h]

theorem checkName_congr (hrows : g'.rows = g.rows) (hcolumns : g'.columns = g.columns) :
    g'.checkName name = g.checkName name := by
  unfold checkName holds
  rw [hrows, hcolumns]

/-- Grids of one extent in which the cells say the same where references lead from a cell give it the
same outcome, lookups and all, below every chain. What lies outside of the grid does not count. -/
theorem resolveBelow_congr_entry (hrows : g'.rows = g.rows) (hcolumns : g'.columns = g.columns)
    (h : ∀ m, ReflTransGen g.RefersTo (Text.upper name) m → g.HasCell m →
      g'.entry m = g.entry m) :
    g'.resolveBelow limit more visited name = g.resolveBelow limit more visited name := by
  induction more, visited, name using chain_induction with
  | cycle hmem => rw [resolveBelow_of_mem hmem, resolveBelow_of_mem hmem]
  | tooLong hmem => rw [resolveBelow_zero hmem, resolveBelow_zero hmem]
  | below hmem ih =>
    rw [resolveBelow_succ hmem, resolveBelow_succ hmem, checkName_congr hrows hcolumns]
    refine Traced.bind_congr_of_outcome fun _ hcheck => ?_
    rw [h _ .refl (checkName_eq_ok.1 hcheck)]
    refine Traced.bind_congr_of_outcome fun entry hentry => ?_
    cases hentry
    refine Entry.eval_congr fun n hn => ih n fun k hk => ?_
    exact h k (reaches_of_needs hn hk)

/-- So do grids of one extent with the same texts there. -/
theorem resolveBelow_congr (hrows : g'.rows = g.rows) (hcolumns : g'.columns = g.columns)
    (h : ∀ m, ReflTransGen g.RefersTo (Text.upper name) m → g'.text? m = g.text? m) :
    g'.resolveBelow limit more visited name = g.resolveBelow limit more visited name :=
  resolveBelow_congr_entry hrows hcolumns fun m hm _ => entry_congr (h m hm)

theorem resolve_congr {rows columns : Int} {texts texts' : CellTexts}
    (h : ∀ m, ReflTransGen (ofTexts rows columns texts).RefersTo (Text.upper name) m →
      texts'.get? m = texts.get? m) :
    (ofTexts rows columns texts').resolve limit name =
      (ofTexts rows columns texts).resolve limit name := by
  refine congrArg Traced.outcome (resolveBelow_congr rfl rfl fun m hm => ?_)
  have hupper : Text.upper m = m := upper_eq_self_of_reaches (Text.upper_upper name) hm
  rw [← hupper, text?_ofTexts_upper, text?_ofTexts_upper, hupper]
  exact h m hm

end Grid

/-! ## Edits -/

/-- Whether an edit sets or clears a cell whose name has a property. -/
def Edit.Concerns (P : String → Prop) : Edit → Prop
  | .set name _ | .clear name => P (Text.upper name)
  | .addRow | .addColumn | .deleteRow | .deleteColumn => False

namespace Sheet

variable {s s' s'' : Sheet} {e : Edit} {edits : List Edit} {P : String → Prop} {name : String}

/-- Whether two sheets differ at most in their marks and in what is stored under names with a
property. -/
structure SameExcept (P : String → Prop) (s s' : Sheet) : Prop where
  rows : s'.rows = s.rows
  columns : s'.columns = s.columns
  chainLimit : s'.chainLimit = s.chainLimit
  get? : ∀ m, ¬ P m → s'.cells.get? m = s.cells.get? m

theorem SameExcept.refl (P : String → Prop) (s : Sheet) : SameExcept P s s :=
  ⟨rfl, rfl, rfl, fun _ _ => rfl⟩

theorem SameExcept.trans (h : SameExcept P s s') (h' : SameExcept P s' s'') :
    SameExcept P s s'' :=
  ⟨h'.rows.trans h.rows, h'.columns.trans h.columns, h'.chainLimit.trans h.chainLimit,
    fun m hm => (h'.get? m hm).trans (h.get? m hm)⟩

theorem sameExcept_set {text : String} (hP : P (Text.upper name)) :
    SameExcept P s (s.set name text).sheet := by
  unfold set
  dsimp only
  split
  · exact .refl P s
  split
  · exact .refl P s
  · refine ⟨rfl, rfl, rfl, fun m hm => ?_⟩
    refine (OrderedMap.get?_insert _ _ _ m).trans (if_neg ?_)
    rintro rfl
    exact hm hP

theorem sameExcept_clear (hP : P (Text.upper name)) : SameExcept P s (s.clear name).sheet := by
  unfold clear
  dsimp only
  split
  · refine ⟨rfl, rfl, rfl, fun m hm => ?_⟩
    refine (OrderedMap.get?_erase _ _ m).trans (if_neg ?_)
    rintro rfl
    exact hm hP
  · exact .refl P s

theorem sameExcept_edit (h : e.Concerns P) : SameExcept P s (s.edit e).sheet := by
  cases e with
  | set name text =>
    rw [edit]
    exact sameExcept_set h
  | clear name =>
    rw [edit]
    exact sameExcept_clear h
  | addRow | addColumn | deleteRow | deleteColumn => exact h.elim

/-- Edits that set and clear cells leave all else as it is. -/
theorem sameExcept_editAll (h : ∀ e ∈ edits, e.Concerns P) : SameExcept P s (s.editAll edits) := by
  induction edits generalizing s with
  | nil => exact .refl P s
  | cons e edits ih =>
    obtain ⟨he, hedits⟩ := List.forall_mem_cons.1 h
    exact (sameExcept_edit he).trans (ih hedits)

end Sheet

namespace Grid

open Relation (ReflTransGen)

variable {name : String}

theorem value_of_sameExcept {s s' : Sheet}
    (h : s.SameExcept (fun m => ¬ ReflTransGen s.grid.RefersTo (Text.upper name) m) s') :
    s'.value name = s.value name := by
  unfold Sheet.value Sheet.grid
  rw [h.rows, h.columns, h.chainLimit]
  exact resolve_congr fun m hm => h.get? m (not_not_intro hm)

/-- A cell has the same outcome in all maps of texts that agree where references lead from it: the
same value, or the same error with the same path. So it does in particular if other texts are stored
or erased, or if other cells of a sheet are set and cleared in any order. -/
theorem resolve_of_agree (rows columns limit : Int) (texts : CellTexts) (name : String) :
    (∀ texts' : CellTexts,
      (∀ m, ReflTransGen (ofTexts rows columns texts).RefersTo (Text.upper name) m →
        texts'.get? m = texts.get? m) →
      (ofTexts rows columns texts').resolve limit name =
        (ofTexts rows columns texts).resolve limit name) ∧
    (∀ m, ¬ ReflTransGen (ofTexts rows columns texts).RefersTo (Text.upper name) m →
      ∀ text, (ofTexts rows columns (texts.insert m text)).resolve limit name =
        (ofTexts rows columns texts).resolve limit name) ∧
    (∀ ms : List String,
      (∀ m ∈ ms, ¬ ReflTransGen (ofTexts rows columns texts).RefersTo (Text.upper name) m) →
      (ofTexts rows columns (texts.eraseAll ms)).resolve limit name =
        (ofTexts rows columns texts).resolve limit name) ∧
    ∀ (dirty : Bool) (edits : List Edit),
      (∀ e ∈ edits, e.Concerns fun m =>
        ¬ ReflTransGen (ofTexts rows columns texts).RefersTo (Text.upper name) m) →
      (Sheet.editAll ⟨rows, columns, texts, dirty, limit⟩ edits).value name =
        (ofTexts rows columns texts).resolve limit name := by
  refine ⟨fun texts' h => resolve_congr h, fun m hm text => resolve_congr fun k hk => ?_,
    fun ms hms => resolve_congr fun k hk => ?_, fun dirty edits h => ?_⟩
  · rw [OrderedMap.get?_insert, if_neg]
    rintro rfl
    exact hm hk
  · rw [OrderedMap.get?_eraseAll, if_neg]
    intro hmem
    exact hms k hmem hk
  · exact value_of_sameExcept (Sheet.sameExcept_editAll h)

/-- A cell that refers to a second one, and a third one that refers to the first. -/
def upstream : CellTexts :=
  .ofList [("A1", "=b1 + 1"), ("B1", "2"), ("C1", "=A1")]

theorem eq_of_reaches_upstream {m : String}
    (h : ReflTransGen (ofTexts 1 3 upstream).RefersTo "A1" m) : m = "A1" ∨ m = "B1" := by
  induction h with
  | refl => exact .inl rfl
  | tail _ hlast ih =>
    obtain ⟨text, htext, hrefers⟩ := hlast
    obtain rfl | rfl := ih
    · have hfirst : (ofTexts 1 3 upstream).text? "A1" = some "=b1 + 1" := by decide +kernel
      obtain rfl : "=b1 + 1" = text := Option.some.inj (hfirst.symm.trans htext)
      have hnone : CellName.aliasTarget? "=b1 + 1" = none := by decide +kernel
      have htokens : tokenize (String.ofList "b1 + 1".toList) =
          .ok [⟨.cell, "B1", 0⟩, ⟨.operator, "+", 2⟩, ⟨.number, "1", 3⟩] := by decide +kernel
      obtain halias | ⟨body, ts, hbody, hts, t, ht, hkind, rfl⟩ := hrefers
      · cases hnone.symm.trans halias
      · obtain rfl : "b1 + 1".toList = body := (List.cons.inj hbody).2
        obtain rfl := Except.ok.inj (htokens.symm.trans hts)
        simp only [List.mem_cons, List.not_mem_nil, or_false] at ht
        obtain rfl | rfl | rfl := ht
        · exact .inr rfl
        · cases hkind
        · cases hkind
    · have hsecond : (ofTexts 1 3 upstream).text? "B1" = some "2" := by decide +kernel
      obtain rfl : "2" = text := Option.some.inj (hsecond.symm.trans htext)
      cases hrefers.head?_eq

/-- `A1` keeps its value when `C1` is set and cleared, and in other texts with the same `A1` and
`B1`. -/
theorem resolve_of_agree_upstream :
    (ofTexts 1 3 upstream).resolve 5 "a1" = .ok (.decimal ⟨false, 3, 0⟩) ∧
      ¬ ReflTransGen (ofTexts 1 3 upstream).RefersTo "A1" "C1" ∧
      (Sheet.editAll ⟨1, 3, upstream, false, 5⟩ [.clear "c1", .set "C1" "=1/0"]).value "a1" =
        .ok (.decimal ⟨false, 3, 0⟩) ∧
      (ofTexts 1 3 (.ofList [("B1", "2"), ("D1", "=A1"), ("A1", "=b1 + 1")])).resolve 5 "a1" =
        .ok (.decimal ⟨false, 3, 0⟩) := by
  have hvalue : (ofTexts 1 3 upstream).resolve 5 "a1" = .ok (.decimal ⟨false, 3, 0⟩) := by
    decide +kernel
  have hupper : Text.upper "a1" = "A1" := by
    decide +kernel
  have hapart : ¬ ReflTransGen (ofTexts 1 3 upstream).RefersTo "A1" "C1" := by
    intro h
    obtain h | h := eq_of_reaches_upstream h <;> simp at h
  obtain ⟨hagree, -, -, hedits⟩ := resolve_of_agree 1 3 5 upstream "a1"
  rw [hupper] at hagree hedits
  refine ⟨hvalue, hapart, (hedits false _ ?_).trans hvalue, (hagree _ ?_).trans hvalue⟩
  · intro e he
    simp only [List.mem_cons, List.not_mem_nil, or_false] at he
    have hname : Text.upper "c1" = "C1" ∧ Text.upper "C1" = "C1" := by decide +kernel
    obtain rfl | rfl := he
    · rw [Edit.Concerns, hname.1]
      exact hapart
    · rw [Edit.Concerns, hname.2]
      exact hapart
  · intro m hm
    obtain rfl | rfl := eq_of_reaches_upstream hm <;> decide +kernel

end Grid

end Spreadsheet
