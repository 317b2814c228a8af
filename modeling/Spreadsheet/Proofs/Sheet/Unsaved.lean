import Spreadsheet.Proofs.Sheet.Edit
import Spreadsheet.Sheet.Folder

/-!
# Unsaved changes

An edit that changes a sheet marks it, and an edit that does not leaves all of it alone, the order of
the texts included. So as long as a sheet is not marked it is the sheet that was last marked as clean,
saved or loaded.

Only a row with more columns than there are letters for can lose texts without a mark, and such rows
are left out here.

## Main definitions

* `Sheet.Differs` — sheets that differ in their extent or in the text of a cell.
* `Action`, `Session` — what is done with an open sheet.

## Main statements

* `Sheet.edit_eq_self_or_differs` — what an edit does.
* `Session.Settled.run` — what holds as long as there are no unsaved changes.
* `Session.dirty_iff_changed` — the mark is exact.
-/

namespace Spreadsheet

namespace Sheet

variable {s t : Sheet} {name : String}

/-! ## Edits -/

/-- Sheets that differ in their extent or in what is stored under some name. -/
def Differs (s t : Sheet) : Prop :=
  s.rows ≠ t.rows ∨ s.columns ≠ t.columns ∨ ∃ k, s.cells.get? k ≠ t.cells.get? k

theorem not_differs_self (s : Sheet) : ¬ s.Differs s := by
  simp [Differs]

/-- An edit either leaves the sheet alone, or it changes and marks it. -/
theorem edit_eq_self_or_differs (h : s.columns ≤ Column.last) (e : Edit) :
    (s.edit e).sheet = s ∨ (s.edit e).sheet.dirty = true ∧ (s.edit e).sheet.Differs s := by
  have heffect := effect_edit s e
  generalize s.edit e = r at heffect ⊢
  cases heffect with
  | fails | idle => exact .inl rfl
  | clearRow _ hcolumns => omega
  | @set name text _ _ hnew =>
    refine .inr ⟨rfl, .inr (.inr ⟨Text.upper name, fun hsame => hnew ?_⟩)⟩
    have hstored : s.cells.get? (Text.upper name) = some text := by
      rw [← hsame]
      exact (OrderedMap.get?_insert ..).trans (if_pos rfl)
    rw [get, text?, hstored]
    rfl
  | @clear name hmem =>
    refine .inr ⟨rfl, .inr (.inr ⟨Text.upper name, ?_⟩)⟩
    obtain ⟨entry, hentry, hname⟩ := List.mem_map.1 hmem
    rw [← hname, OrderedMap.get?_eq_some.2 hentry, done, OrderedMap.get?_erase, if_pos rfl]
    exact (Option.some_ne_none _).symm
  | addRow => exact .inr ⟨rfl, .inl (show s.rows + 1 ≠ s.rows by omega)⟩
  | addColumn => exact .inr ⟨rfl, .inr (.inl (show s.columns + 1 ≠ s.columns by omega))⟩
  | deleteRow => exact .inr ⟨rfl, .inl (show s.rows - 1 ≠ s.rows by omega)⟩
  | deleteColumn => exact .inr ⟨rfl, .inr (.inl (show s.columns - 1 ≠ s.columns by omega))⟩

/-- An edited sheet is marked if and only if it was marked before or has changed. -/
theorem dirty_edit (h : s.columns ≤ Column.last) (e : Edit) :
    (s.edit e).sheet.dirty = true ↔ s.dirty = true ∨ (s.edit e).sheet.Differs s := by
  obtain hsame | ⟨hdirty, hdiffers⟩ := edit_eq_self_or_differs h e
  · simp [hsame, not_differs_self]
  · simp [hdirty, hdiffers]

theorem edit_eq_self_of_dirty (h : s.columns ≤ Column.last) {e : Edit}
    (hdirty : (s.edit e).sheet.dirty = false) : (s.edit e).sheet = s := by
  obtain hsame | ⟨hmarked, -⟩ := edit_eq_self_or_differs h e
  · exact hsame
  · rw [hdirty] at hmarked
    cases hmarked

end Sheet

/-! ## Sessions -/

/-- What is done with an open sheet. -/
inductive Action
  | edit (e : Edit)
  | markClean
  | save (path : String)
  | load (path : String)
deriving DecidableEq, Inhabited

/-- An open sheet beside a folder. -/
structure Session where
  folder : Folder
  sheet : Sheet
  /-- The sheet as it was when it was last marked as clean, saved or loaded. -/
  kept : Sheet
deriving DecidableEq, Inhabited

namespace Session

variable {σ : Session} {actions : List Action}

/-- A session that goes on from a sheet as it is. -/
def start (folder : Folder) (sheet : Sheet) : Session :=
  ⟨folder, sheet, sheet⟩

/-- The session after an action. A sheet that cannot be saved stays as it is, and so does the open
sheet if another one cannot be loaded. -/
def step (σ : Session) : Action → Session
  | .edit e => { σ with sheet := (σ.sheet.edit e).sheet }
  | .markClean => start σ.folder σ.sheet.markClean
  | .save path =>
    match σ.folder.save σ.sheet path with
    | .ok (folder, sheet) => start folder sheet
    | .error _ => σ
  | .load path =>
    match σ.folder.load path with
    | .ok sheet => start σ.folder sheet
    | .error _ => σ

/-- The session after several actions. -/
def run (σ : Session) (actions : List Action) : Session :=
  actions.foldl step σ

/-- Without unsaved changes the sheet is the one that was kept. -/
def Settled (σ : Session) : Prop :=
  σ.sheet.dirty = false → σ.sheet = σ.kept

theorem settled_start (folder : Folder) (sheet : Sheet) : (start folder sheet).Settled :=
  fun _ => rfl

theorem Settled.step (h : σ.Settled) (hcolumns : σ.sheet.columns ≤ Column.last) (a : Action) :
    (σ.step a).Settled := by
  cases a with
  | edit e =>
    intro hdirty
    have hsame : (σ.sheet.edit e).sheet = σ.sheet := Sheet.edit_eq_self_of_dirty hcolumns hdirty
    show (σ.sheet.edit e).sheet = σ.kept
    rw [hsame]
    exact h (hsame ▸ hdirty)
  | markClean => exact settled_start _ _
  | save path =>
    rw [Session.step]
    split
    · exact settled_start _ _
    · exact h
  | load path =>
    rw [Session.step]
    split
    · exact settled_start _ _
    · exact h

theorem Settled.run (h : σ.Settled)
    (hcolumns : ∀ before, before <+: actions → (σ.run before).sheet.columns ≤ Column.last) :
    (σ.run actions).Settled := by
  induction actions generalizing σ with
  | nil => exact h
  | cons a actions ih =>
    refine ih (h.step (hcolumns [] List.nil_prefix) a) fun before hbefore => ?_
    exact hcolumns (a :: before) (List.cons_prefix_cons.2 ⟨rfl, hbefore⟩)

/-- The mark of a sheet is exact. After an edit, a failing one too, it is there if and only if it was
there before or the extent or a stored text has changed; without it the sheet is what it was before.
So as long as all columns have letters, a sheet without a mark is the one that was last marked as clean,
saved or loaded. -/
theorem dirty_iff_changed :
    (∀ (s : Sheet) (e : Edit), s.columns ≤ Column.last →
      ((s.edit e).sheet.dirty = true ↔ s.dirty = true ∨ (s.edit e).sheet.Differs s) ∧
      ((s.edit e).sheet.dirty = false → (s.edit e).sheet = s)) ∧
    ∀ (folder : Folder) (s : Sheet) (actions : List Action),
      (∀ before, before <+: actions →
        ((start folder s).run before).sheet.columns ≤ Column.last) →
      ((start folder s).run actions).sheet.dirty = false →
        ((start folder s).run actions).sheet = ((start folder s).run actions).kept :=
  ⟨fun _ e h => ⟨Sheet.dirty_edit h e, Sheet.edit_eq_self_of_dirty h⟩,
    fun folder s _ h => (settled_start folder s).run h⟩

/-- A text that is set and saved, an edit that fails, and one that has nothing to do. -/
def visit : List Action :=
  [.edit (.set "a1" "x"), .save "a.csv", .edit (.set "1A" "y"), .edit (.clear "b2")]

/-- The text marks the sheet until it is saved; what follows does not mark it again. -/
theorem dirty_iff_changed_visit :
    let s := Sheet.ofTexts 5 5 .empty
    let σ := (start .empty s).run visit
    ((s.edit (.set "a1" "x")).sheet.Differs s ∧ (s.edit (.set "a1" "x")).sheet.dirty = true) ∧
      σ.sheet.dirty = false ∧ σ.sheet = σ.kept ∧ σ.kept.cells.entries = [("A1", "x")] := by
  intro s σ
  obtain ⟨hedit, hrun⟩ := dirty_iff_changed
  have hdirty : (s.edit (.set "a1" "x")).sheet.dirty = true := by decide +kernel
  have hclean : σ.sheet.dirty = false := by decide +kernel
  have hcolumns : ∀ before, before <+: visit →
      ((start .empty s).run before).sheet.columns ≤ Column.last := by
    intro before hbefore
    simp only [visit, List.prefix_cons_iff, List.prefix_nil] at hbefore
    obtain rfl | ⟨_, rfl, rfl | ⟨_, rfl, rfl | ⟨_, rfl, rfl | ⟨_, rfl, rfl⟩⟩⟩⟩ := hbefore <;>
      decide +kernel
  refine ⟨⟨?_, hdirty⟩, hclean, hrun .empty s visit hcolumns hclean, by decide +kernel⟩
  exact ((hedit s (.set "a1" "x") (by decide)).1.1 hdirty).resolve_left (by decide)

end Session

end Spreadsheet
