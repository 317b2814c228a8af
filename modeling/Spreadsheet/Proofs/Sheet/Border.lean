import Spreadsheet.Proofs.Sheet.Deletion

/-!
# Deleting the last row and the last column

A deletion goes along the line that it takes away, as far as the grid goes at that time. If the last row
and the last column are deleted one after the other, then the second deletion does not meet the corner,
which went with the first. So in either order the same names are erased: those of the cells on the
border of the grid. A grid without rows has no last row, and its columns can be deleted all the same;
there is no border then.

## Main definitions

* `Sheet.namesWhere` — the names of some of the cells of the grid.
* `Sheet.withoutBorder` — a sheet without its last row and its last column.

## Main statements

* `Sheet.deleteRow_eq_done`, `Sheet.deleteColumn_eq_done` — what a deletion does on any extent.
* `Sheet.deletions_commute` — the order of the deletions does not matter.
-/

namespace Spreadsheet.Sheet

open CellName (spell)

variable {s : Sheet} {p : Int → Int → Bool} {k : String}

/-! ## Names of cells of the grid -/

/-- The names of the cells of the grid whose positions satisfy `p`. -/
def namesWhere (s : Sheet) (p : Int → Int → Bool) : List String :=
  (upTo s.rows).flatMap fun row => ((upTo s.columns).filter (p row)).map (spell row)

theorem mem_namesWhere : k ∈ s.namesWhere p ↔
    ∃ row column, s.grid.holds row column ∧ p row column ∧ spell row column = k := by
  simp only [namesWhere, List.mem_flatMap, List.mem_map, List.mem_filter, mem_upTo, holds_iff]
  constructor
  · rintro ⟨row, hrow, column, ⟨hcolumn, hp⟩, hname⟩
    exact ⟨row, column, ⟨hrow, hcolumn⟩, hp, hname⟩
  · rintro ⟨row, column, ⟨hrow, hcolumn⟩, hp, hname⟩
    exact ⟨row, hrow, column, ⟨hcolumn, hp⟩, hname⟩

/-- A grid without rows or without columns has no cells. -/
theorem eraseAll_namesWhere_of_empty (h : s.rows = 0 ∨ s.columns = 0) :
    s.cells.eraseAll (s.namesWhere p) = s.cells := by
  rw [OrderedMap.eraseAll_eq_self_iff]
  intro k _ hk
  obtain ⟨row, column, hholds, -⟩ := mem_namesWhere.1 hk
  rw [holds_iff] at hholds
  omega

/-! ## Single deletions -/

/-- The last row is deleted with the cells of the grid that are in it, if there is one. -/
theorem deleteRow_eq_done (hrows : 0 ≤ s.rows) (hlast : s.columns ≤ Column.last) :
    s.edit .deleteRow = done { s with
      rows := max 0 (s.rows - 1)
      cells := s.cells.eraseAll (s.namesWhere fun row _ => row = s.rows)
      dirty := s.dirty || s.rows ≠ 0 } := by
  by_cases hzero : s.rows = 0
  · rw [eraseAll_namesWhere_of_empty (.inl hzero)]
    have hidle : s.edit .deleteRow = done s := if_pos hzero
    have hmax : max 0 (s.rows - 1) = s.rows := by omega
    have hdirty : (s.dirty || decide (s.rows ≠ 0)) = s.dirty := by simp [hzero]
    rw [hidle, hmax, hdirty]
  · have hnames : s.cells.eraseAll s.lastRowNames =
        s.cells.eraseAll (s.namesWhere fun row _ => row = s.rows) := by
      refine s.cells.eraseAll_congr fun k => ?_
      simp only [mem_lastRowNames, mem_namesWhere, holds_iff, decide_eq_true_eq]
      constructor
      · rintro ⟨column, hpos, hle, -, hname⟩
        exact ⟨s.rows, column, ⟨by omega, hpos, hle⟩, rfl, hname⟩
      · rintro ⟨row, column, ⟨-, hpos, hle⟩, rfl, hname⟩
        exact ⟨column, hpos, hle, by omega, hname⟩
    have hmax : max 0 (s.rows - 1) = s.rows - 1 := by omega
    rw [deleteRow_eq (by omega) hlast, hnames, hmax]
    simp [hzero]

/-- The last column is deleted with the cells of the grid that are in it, if there is one. -/
theorem deleteColumn_eq_done (hcolumns : 0 ≤ s.columns) (hlast : s.columns ≤ Column.last) :
    s.edit .deleteColumn = done { s with
      columns := max 0 (s.columns - 1)
      cells := s.cells.eraseAll (s.namesWhere fun _ column => column = s.columns)
      dirty := s.dirty || s.columns ≠ 0 } := by
  by_cases hzero : s.columns = 0
  · rw [eraseAll_namesWhere_of_empty (.inr hzero)]
    have hidle : s.edit .deleteColumn = done s := if_pos hzero
    have hmax : max 0 (s.columns - 1) = s.columns := by omega
    have hdirty : (s.dirty || decide (s.columns ≠ 0)) = s.dirty := by simp [hzero]
    rw [hidle, hmax, hdirty]
  · have hnames : s.cells.eraseAll ((upTo s.rows).map fun row => spell row s.columns) =
        s.cells.eraseAll (s.namesWhere fun _ column => column = s.columns) := by
      refine s.cells.eraseAll_congr fun k => ?_
      simp only [List.mem_map, mem_upTo, mem_namesWhere, holds_iff, decide_eq_true_eq]
      constructor
      · rintro ⟨row, hrow, hname⟩
        exact ⟨row, s.columns, ⟨hrow, by omega⟩, rfl, hname⟩
      · rintro ⟨row, column, ⟨hrow, -⟩, rfl, hname⟩
        exact ⟨row, hrow, hname⟩
    have hmax : max 0 (s.columns - 1) = s.columns - 1 := by omega
    rw [deleteColumn_eq (by omega) hlast, hnames, hmax]
    simp [hzero]

/-! ## Both deletions -/

/-- The sheet without its last row and its last column, as far as it has them, and without the texts of
their cells. -/
def withoutBorder (s : Sheet) : Sheet :=
  { s with
    rows := max 0 (s.rows - 1)
    columns := max 0 (s.columns - 1)
    cells := s.cells.eraseAll
      (s.namesWhere fun row column => row = s.rows || column = s.columns)
    dirty := s.dirty || s.rows ≠ 0 || s.columns ≠ 0 }

/-- What two deletions erase is the border, if each position of the border is met by one of them. The
corner need not be met by the second. -/
theorem eraseAll_border {t : Sheet} {p q : Int → Int → Bool}
    (h : ∀ row column, (s.grid.holds row column ∧ p row column) ∨
        (t.grid.holds row column ∧ q row column) ↔
      s.grid.holds row column ∧ (row = s.rows ∨ column = s.columns)) :
    (s.cells.eraseAll (s.namesWhere p)).eraseAll (t.namesWhere q) = s.withoutBorder.cells := by
  rw [← OrderedMap.eraseAll_append]
  refine s.cells.eraseAll_congr fun k => ?_
  simp only [List.mem_append, mem_namesWhere, ← exists_or, ← and_assoc, ← or_and_right, h,
    Bool.or_eq_true, decide_eq_true_eq]

/-- If the extent of a sheet is not negative and all of its columns have letters, then its last row and
its last column can be deleted in either order, and both orders leave the same sheet: without the line
of each, as far as there is one, without the texts that are stored under the names of their cells, and
with all other texts in their order. -/
theorem deletions_commute (s : Sheet) (hrows : 0 ≤ s.rows) (hcolumns : 0 ≤ s.columns)
    (hlast : s.columns ≤ Column.last) :
    (s.edit .deleteRow).error? = none ∧ (s.edit .deleteColumn).error? = none ∧
    (s.edit .deleteRow).sheet.edit .deleteColumn = done s.withoutBorder ∧
    (s.edit .deleteColumn).sheet.edit .deleteRow = done s.withoutBorder := by
  have hrow := deleteRow_eq_done hrows hlast
  have hcolumn := deleteColumn_eq_done hcolumns hlast
  refine ⟨by rw [hrow, done], by rw [hcolumn, done], ?_, ?_⟩
  · rw [hrow, done]
    refine (deleteColumn_eq_done (by exact hcolumns) (by exact hlast)).trans ?_
    rw [eraseAll_border fun row column => ?_]
    · rfl
    · simp only [holds_iff, decide_eq_true_eq]
      omega
  · have hfewer : max 0 (s.columns - 1) ≤ Column.last := by omega
    rw [hcolumn, done]
    refine (deleteRow_eq_done (by exact hrows) (by exact hfewer)).trans ?_
    rw [eraseAll_border fun row column => ?_, Bool.or_right_comm]
    · rfl
    · simp only [holds_iff, decide_eq_true_eq]
      omega

/-- A sheet with texts in its corner and on both of its borders, one of them under another spelling, and
one beyond them. -/
def bordered : Sheet :=
  ⟨2, 2, .ofList [("B2", "x"), ("A02", "y"), ("A1", "z"), ("B1", "u"), ("C2", "v"), ("A2", "w")],
    false, 7⟩

/-- Three texts on the border go in either order. -/
theorem deletions_commute_bordered :
    let s := ((bordered.edit .deleteRow).sheet.edit .deleteColumn).sheet
    ((bordered.edit .deleteColumn).sheet.edit .deleteRow).sheet = s ∧
      s.rows = 1 ∧ s.columns = 1 ∧ s.cells.entries = [("A02", "y"), ("A1", "z"), ("C2", "v")] := by
  obtain ⟨-, -, hrow, hcolumn⟩ :=
    deletions_commute bordered (by decide) (by decide) (by decide)
  intro s
  have hs : s = bordered.withoutBorder := congrArg Edited.sheet hrow
  rw [hcolumn, hs]
  decide +kernel

end Spreadsheet.Sheet
