import Spreadsheet.Proofs.Sheet.Names

/-!
# Deleting rows and columns

A deleted row or column takes with it the texts that are stored under the names of its cells. These are
the names that the positions of the line are given, as far as the grid goes. A text that is stored under
another spelling, or beyond the last column or row, stays where it was, though its position is on the
line. If texts are only set under names of cells of the grid then nothing is left of the line.

## Main definitions

* `Sheet.Removes` — the positions of a line that is deleted.
* `Sheet.IsTidy` — sheets whose texts are stored under names of cells of the grid.
* `Sheet.Respects`, `Sheet.RespectsAll` — edits that set texts under such names only.
* `Sheet.edited` — new sheets after some edits.

## Main statements

* `Sheet.exists_edit_of_removal` — what a deletion does to extent and texts.
* `Sheet.IsTidy.editAll` — sheets that stay tidy.
* `Sheet.keys_of_removal` — what is left of a deleted line.
* `Sheet.keys_of_removal_misspelled` — texts that stay on the line.
-/

namespace Spreadsheet

open CellName (IsCanonical spell spelling split)

/-! ## Names that are spelled -/

namespace CellName

variable {name : String} {row column : Nat} {row' column' : Int}

/-- A name that is spelled for a position has this position, if it has one. -/
theorem eq_of_split_spell (hrow : 0 ≤ row') (hcolumn : 1 ≤ column') (hlast : column' ≤ Column.last)
    (h : split (spell row' column') = .ok (row, column)) : row' = row ∧ column' = column := by
  obtain ⟨r, rfl⟩ := Int.eq_ofNat_of_zero_le hrow
  obtain ⟨k, rfl⟩ := Int.eq_ofNat_of_zero_le (show 0 ≤ column' by omega)
  have hupper : Text.upper (spell r k) = spell r k := by
    rw [← spelling_zero, upper_spelling rfl]
  cases splits_iff.2 h with
  | position hparts =>
    rw [hupper, parts?_spell hrow hcolumn] at hparts
    obtain ⟨rfl, rfl⟩ := Prod.mk.inj (Option.some.inj hparts)
    rw [Numeral.value_toDigits, Column.ofLetters_letters (by omega)]
    exact ⟨rfl, rfl⟩

/-- Of the names that are spelled for some positions of the grid, those that are names of cells are
canonical. -/
theorem exists_spell_iff {P : Int → Int → Prop} (hpos : ∀ r k, P r k → 1 ≤ r ∧ 1 ≤ k ∧ k ≤ Column.last)
    (h : split name = .ok (row, column)) :
    (∃ r k, P r k ∧ spell r k = name) ↔ P row column ∧ IsCanonical name := by
  constructor
  · rintro ⟨r, k, hP, rfl⟩
    obtain ⟨hr, hk, hlast⟩ := hpos r k hP
    obtain ⟨rfl, rfl⟩ := eq_of_split_spell (by omega) hk hlast h
    exact ⟨hP, (isCanonical_iff h).2 ⟨by omega, rfl⟩⟩
  · rintro ⟨hP, hcanonical⟩
    exact ⟨row, column, hP, ((isCanonical_iff h).1 hcanonical).2.symm⟩

end CellName

namespace Sheet

variable {s : Sheet} {e : Edit} {edits : List Edit} {name k : String} {row column : Int}

/-! ## Lines -/

theorem holds_iff : s.grid.holds row column = true ↔
    (1 ≤ row ∧ row ≤ s.rows) ∧ 1 ≤ column ∧ column ≤ s.columns := by
  simp only [Grid.holds, Bool.and_eq_true, decide_eq_true_eq, and_assoc]
  rfl

/-- The positions that an edit takes away from the grid: those of the last row or column. -/
def Removes (s : Sheet) : Edit → Int → Int → Prop
  | .deleteRow, row, _ => row = s.rows
  | .deleteColumn, _, column => column = s.columns
  | _, _, _ => False

theorem deleteRow_eq (hrows : 1 ≤ s.rows) (hlast : s.columns ≤ Column.last) :
    s.edit .deleteRow = done { s with
      rows := s.rows - 1, cells := s.cells.eraseAll s.lastRowNames, dirty := true } := by
  have heffect := effect_edit s .deleteRow
  generalize s.edit .deleteRow = r at heffect ⊢
  cases heffect with
  | fails _ hkept => exact absurd rfl hkept
  | clearRow _ hcolumns => omega
  | idle h => exact absurd (show s.rows = 0 from h) (by omega)
  | deleteRow => rfl

theorem deleteColumn_eq (hcolumns : 1 ≤ s.columns) (hlast : s.columns ≤ Column.last) :
    s.edit .deleteColumn = done { s with
      columns := s.columns - 1
      cells := s.cells.eraseAll ((upTo s.rows).map fun row => spell row s.columns)
      dirty := true } := by
  have heffect := effect_edit s .deleteColumn
  generalize s.edit .deleteColumn = r at heffect ⊢
  cases heffect with
  | fails h =>
    cases h with
    | deleteColumn _ _ hrange => omega
  | idle h => exact absurd (show s.columns = 0 from h) (by omega)
  | deleteColumn => rfl

/-- A row or column is deleted together with the names that are spelled for its positions. -/
theorem exists_edit_of_removal (he : e = .deleteRow ∨ e = .deleteColumn) (hrows : 1 ≤ s.rows)
    (hcolumns : 1 ≤ s.columns) (hlast : s.columns ≤ Column.last) :
    ∃ t names, s.edit e = done t ∧ t.cells = s.cells.eraseAll names ∧
      (∀ row column, t.grid.holds row column ↔ s.grid.holds row column ∧ ¬ s.Removes e row column) ∧
      ∀ name, name ∈ names ↔ ∃ row column,
        (s.grid.holds row column ∧ s.Removes e row column) ∧ spell row column = name := by
  obtain rfl | rfl := he
  · refine ⟨_, s.lastRowNames, deleteRow_eq hrows hlast, rfl, fun row column => ?_, fun name => ?_⟩
    · simp only [holds_iff, Removes]
      omega
    · rw [mem_lastRowNames]
      constructor
      · rintro ⟨column, hpos, hle, -, hname⟩
        exact ⟨s.rows, column, ⟨holds_iff.2 ⟨⟨hrows, by omega⟩, hpos, hle⟩, rfl⟩, hname⟩
      · rintro ⟨row, column, ⟨hholds, rfl⟩, hname⟩
        obtain ⟨-, hpos, hle⟩ := holds_iff.1 hholds
        exact ⟨column, hpos, hle, by omega, hname⟩
  · refine ⟨_, _, deleteColumn_eq hcolumns hlast, rfl, fun row column => ?_, fun name => ?_⟩
    · simp only [holds_iff, Removes]
      omega
    · simp only [List.mem_map, mem_upTo]
      constructor
      · rintro ⟨row, hrow, hname⟩
        exact ⟨row, s.columns, ⟨holds_iff.2 ⟨hrow, hcolumns, by omega⟩, rfl⟩, hname⟩
      · rintro ⟨row, column, ⟨hholds, rfl⟩, hname⟩
        exact ⟨row, (holds_iff.1 hholds).1, hname⟩

/-- Of the names of positions, those of cells of the line are erased. -/
theorem mem_keys_of_removal (he : e = .deleteRow ∨ e = .deleteColumn) (hrows : 1 ≤ s.rows)
    (hcolumns : 1 ≤ s.columns) (hlast : s.columns ≤ Column.last) {row column : Nat}
    (hk : k ∈ s.cells.keys) (hsplit : split k = .ok (row, column)) :
    k ∉ (s.edit e).sheet.cells.keys ↔
      (s.grid.holds row column ∧ s.Removes e row column) ∧ IsCanonical k := by
  obtain ⟨t, names, hedit, hcells, -, hnames⟩ := exists_edit_of_removal he hrows hcolumns hlast
  have hpos : ∀ r k, s.grid.holds r k ∧ s.Removes e r k → 1 ≤ r ∧ 1 ≤ k ∧ k ≤ Column.last := by
    rintro r k ⟨hholds, -⟩
    have := holds_iff.1 hholds
    omega
  rw [hedit, done, hcells, OrderedMap.mem_keys_eraseAll, hnames,
    CellName.exists_spell_iff hpos hsplit]
  simp only [hk, true_and, Classical.not_not]

/-! ## Tidy sheets -/

/-- A sheet whose texts are all stored under the names of cells of its grid. -/
def IsTidy (s : Sheet) : Prop :=
  ∀ k ∈ s.cells.keys, ∃ row column : Nat,
    split k = .ok (row, column) ∧ IsCanonical k ∧ s.grid.holds row column

/-- Whether an edit sets no text, or one for a cell of the grid under the name of the cell. -/
def Respects (s : Sheet) : Edit → Prop
  | .set name _ => ∀ row column : Nat, split name = .ok (row, column) →
      IsCanonical (Text.upper name) ∧ s.grid.holds row column
  | _ => True

/-- Whether several edits respect the grid, each as the others before have left it. -/
def RespectsAll (s : Sheet) : List Edit → Prop
  | [] => True
  | e :: edits => s.Respects e ∧ (s.edit e).sheet.RespectsAll edits

/-- A sheet stays tidy if its texts stay where they are and no cell with a text leaves the grid. -/
theorem IsTidy.of_keys {t : Sheet} (h : s.IsTidy) (hkeys : ∀ k ∈ t.cells.keys, k ∈ s.cells.keys)
    (hholds : ∀ k ∈ t.cells.keys, ∀ row column : Nat, split k = .ok (row, column) →
      s.grid.holds row column → t.grid.holds row column) : t.IsTidy := by
  intro k hk
  obtain ⟨row, column, hsplit, hcanonical, hgrid⟩ := h k (hkeys k hk)
  exact ⟨row, column, hsplit, hcanonical, hholds k hk row column hsplit hgrid⟩

/-- A line that is deleted leaves no text behind. -/
theorem IsTidy.removal (h : s.IsTidy) (he : e = .deleteRow ∨ e = .deleteColumn)
    (hlast : s.columns ≤ Column.last) : (s.edit e).sheet.IsTidy := by
  have hkeys : ∀ k ∈ (s.edit e).sheet.cells.keys, k ∈ s.cells.keys := fun k hk => by
    obtain hk | ⟨name, text, position, rfl, -⟩ := mem_keys_edit hk
    · exact hk
    · simp at he
  refine h.of_keys hkeys fun k hk row column hsplit hgrid => ?_
  obtain ⟨hrow, hcolumn⟩ := holds_iff.1 hgrid
  obtain ⟨_, _, -, hcanonical, -⟩ := h k (hkeys k hk)
  obtain ⟨t, names, hedit, -, hholds, -⟩ := exists_edit_of_removal he (by omega) (by omega) hlast
  have herased := mem_keys_of_removal he (by omega) (by omega) hlast (hkeys k hk) hsplit
  rw [hedit] at hk herased ⊢
  refine (hholds row column).2 ⟨hgrid, fun hremoves => ?_⟩
  exact herased.2 ⟨⟨hgrid, hremoves⟩, hcanonical⟩ hk

theorem mem_keys_of_eraseAll (names : List String) (hk : k ∈ (s.cells.eraseAll names).keys) :
    k ∈ s.cells.keys :=
  (OrderedMap.mem_keys_eraseAll.1 hk).1

theorem IsTidy.edit (h : s.IsTidy) (hrespects : s.Respects e) : (s.edit e).sheet.IsTidy := by
  by_cases hremoval : (e = .deleteRow ∨ e = .deleteColumn) ∧ s.columns ≤ Column.last
  · exact h.removal hremoval.1 hremoval.2
  have heffect := effect_edit s e
  generalize s.edit e = r at heffect ⊢
  cases heffect with
  | fails | idle => exact h
  | clearRow => exact h.of_keys (fun _ => mem_keys_of_eraseAll _) fun _ _ _ _ _ hgrid => hgrid
  | set hsplit =>
    intro k hk
    obtain rfl | hk := OrderedMap.mem_keys_insert.1 hk
    · obtain ⟨hcanonical, hgrid⟩ := hrespects _ _ hsplit
      exact ⟨_, _, CellName.split_upper.2 hsplit, hcanonical, hgrid⟩
    · exact h k hk
  | @clear name =>
    exact h.of_keys (fun _ => mem_keys_of_eraseAll [Text.upper name])
      fun _ _ _ _ _ hgrid => hgrid
  | addRow | addColumn =>
    refine h.of_keys (fun _ hk => hk) fun _ _ row column _ hgrid => holds_iff.2 ?_
    obtain ⟨hrow, hcolumn⟩ := holds_iff.1 hgrid
    simp only [done]
    omega
  | deleteRow _ hlast => exact absurd ⟨.inl rfl, hlast⟩ hremoval
  | deleteColumn _ hrange =>
    -- without rows there is no text
    refine h.of_keys (fun _ => mem_keys_of_eraseAll _) fun _ _ row column _ hgrid => ?_
    obtain ⟨hrow, -⟩ := holds_iff.1 hgrid
    obtain hnone | ⟨-, hlast⟩ := hrange
    · omega
    · exact absurd ⟨.inr rfl, hlast⟩ hremoval

theorem IsTidy.editAll (h : s.IsTidy) (hrespects : s.RespectsAll edits) :
    (s.editAll edits).IsTidy := by
  induction edits generalizing s with
  | nil => exact h
  | cons e edits ih => exact ih (h.edit hrespects.1) hrespects.2

/-! ## New sheets -/

/-- A new sheet. -/
def new : Sheet :=
  ofTexts defaultExtent defaultExtent .empty

/-- A new sheet after some edits. -/
def edited (edits : List Edit) : Sheet :=
  new.editAll edits

theorem exists_split_of_mem_keys (hk : k ∈ (edited edits).cells.keys) :
    ∃ row column, split k = .ok (row, column) := by
  obtain hempty | ⟨name, text, ⟨row, column⟩, -, hsplit, rfl⟩ := mem_keys_editAll hk
  · cases hempty
  · exact ⟨row, column, CellName.split_upper.2 hsplit⟩

/-- If a new sheet that was edited has rows and columns, and all columns have letters, then its last
row or column can be deleted. The other texts stay in their order. All names of texts are spellings of
positions, and those that go are the names of the cells of the line: a name that its position is not
given stays, and so does one that is not of the grid. If texts were only set for cells of the grid under
the names of the cells then no text is left on the line. -/
theorem keys_of_removal (edits : List Edit) (e : Edit) (he : e = .deleteRow ∨ e = .deleteColumn)
    (hrows : 1 ≤ (edited edits).rows) (hcolumns : 1 ≤ (edited edits).columns)
    (hlast : (edited edits).columns ≤ Column.last) :
    ((edited edits).edit e).error? = none ∧
    ((edited edits).edit e).sheet.cells.entries.Sublist (edited edits).cells.entries ∧
    (∀ k ∈ (edited edits).cells.keys, ∃ row column : Nat, split k = .ok (row, column) ∧
      (k ∉ ((edited edits).edit e).sheet.cells.keys ↔
        ((edited edits).grid.holds row column ∧ (edited edits).Removes e row column) ∧
          IsCanonical k)) ∧
    (new.RespectsAll edits →
      ∀ k ∈ ((edited edits).edit e).sheet.cells.keys, ∀ row column : Nat,
        split k = .ok (row, column) → ¬ (edited edits).Removes e row column) := by
  obtain ⟨t, names, hedit, hcells, hholds, -⟩ :=
    exists_edit_of_removal he hrows hcolumns hlast
  refine ⟨by rw [hedit, done], ?_, fun k hk => ?_, fun hrespects k hk row column hsplit => ?_⟩
  · rw [hedit, done, hcells, OrderedMap.entries_eraseAll]
    exact List.filter_sublist
  · obtain ⟨row, column, hsplit⟩ := exists_split_of_mem_keys hk
    exact ⟨row, column, hsplit, mem_keys_of_removal he hrows hcolumns hlast hk hsplit⟩
  · have htidy : (edited edits).IsTidy :=
      IsTidy.editAll (fun k hk => by cases hk) hrespects
    obtain ⟨row', column', hsplit', -, hgrid⟩ := htidy.removal he hlast k hk
    obtain ⟨rfl, rfl⟩ := Prod.mk.inj (Except.ok.inj (hsplit'.symm.trans hsplit))
    rw [hedit] at hgrid
    exact ((hholds _ _).1 hgrid).2

/-- Texts in three corners of a grid that has got another column. -/
def corners : List Edit :=
  [.addColumn, .set "a5" "x", .set "F1" "y", .set "f5" "z"]

/-- The last row takes its two texts along, and so does the last column. -/
theorem keys_of_removal_corners :
    ((edited corners).edit .deleteRow).sheet.cells.keys = ["F1"] ∧
    ((edited corners).edit .deleteColumn).sheet.cells.keys = ["A5"] ∧
    ¬ (edited corners).Removes .deleteRow 1 6 ∧ ¬ (edited corners).Removes .deleteColumn 5 1 := by
  have hrespects : new.RespectsAll corners := by
    have hfirst : split "a5" = .ok (5, 1) := by decide +kernel
    have hsecond : split "F1" = .ok (1, 6) := by decide +kernel
    have hthird : split "f5" = .ok (5, 6) := by decide +kernel
    refine ⟨trivial, fun row column h => ?_, fun row column h => ?_, fun row column h => ?_, trivial⟩
    · cases hfirst.symm.trans h
      exact ⟨⟨5, 1, by decide +kernel⟩, by decide +kernel⟩
    · cases hsecond.symm.trans h
      exact ⟨⟨1, 6, by decide +kernel⟩, by decide +kernel⟩
    · cases hthird.symm.trans h
      exact ⟨⟨5, 6, by decide +kernel⟩, by decide +kernel⟩
  have hrow : ((edited corners).edit .deleteRow).sheet.cells.keys = ["F1"] := by decide +kernel
  have hcolumn : ((edited corners).edit .deleteColumn).sheet.cells.keys = ["A5"] := by
    decide +kernel
  obtain ⟨-, -, -, hrows⟩ := keys_of_removal corners .deleteRow (.inl rfl) (by decide +kernel)
    (by decide +kernel) (by decide +kernel)
  obtain ⟨-, -, -, hcolumns⟩ := keys_of_removal corners .deleteColumn (.inr rfl) (by decide +kernel)
    (by decide +kernel) (by decide +kernel)
  refine ⟨hrow, hcolumn, ?_, ?_⟩
  · exact hrows hrespects "F1" (by simp [hrow]) 1 6 (by decide +kernel)
  · exact hcolumns hrespects "A5" (by simp [hcolumn]) 5 1 (by decide +kernel)

/-- The cell `A5` under another name and a text in the last row beyond the last column stay when the row
is deleted. -/
theorem keys_of_removal_misspelled :
    let s := edited [.set "A05" "x", .set "F5" "y"]
    (s.edit .deleteRow).sheet.cells.keys = ["A05", "F5"] ∧
      split "A05" = .ok (5, 1) ∧ s.Removes .deleteRow 5 1 ∧
      split "F5" = .ok (5, 6) ∧ s.Removes .deleteRow 5 6 := by
  have hrows : (edited [.set "A05" "x", .set "F5" "y"]).rows = 5 := by decide +kernel
  exact ⟨by decide +kernel, by decide +kernel, hrows.symm, by decide +kernel, hrows.symm⟩

end Sheet

end Spreadsheet
