import Spreadsheet.Sheet.Basic
import Spreadsheet.Worksheet.Reading

/-!
# Sheets and worksheets

A sheet becomes a workbook with one worksheet: literals become numbers, all other texts stay as
they are. A worksheet becomes a sheet with the extent of its used range and the texts that a user
would have typed for its values.

## Main definitions

* `Sheet.toWorksheet`, `Sheet.toWorkbook` — the worksheet of a sheet.
* `Sheet.ofWorksheet`, `Sheet.ofWorkbook` — the sheet of a worksheet.
-/

namespace Spreadsheet.Sheet

/-- The title of the worksheet of a sheet. -/
def worksheetTitle : String :=
  "Sheet1"

/-- The value for the text of a cell. A formula stays a text. -/
def cellValue (text : String) : Value :=
  if text.toList.head? = some '=' then .text text else .ofText text

/-- The worksheet of a sheet. All stored cells become cells of it; of two names for one position
the later one counts. -/
def toWorksheet (s : Sheet) (title : String) : Except Error Worksheet := do
  let title ← Worksheet.newTitle title
  Worksheet.ofList title (s.cells.entries.map fun e => (e.1, cellValue e.2))

/-- The workbook of a sheet. -/
def toWorkbook (s : Sheet) (title : String) : Except Error Workbook :=
  (s.toWorksheet title).map fun w => ⟨[w]⟩

/-- The sheet of a worksheet: the texts of the used range, row by row, and its extent after they were
looked at. Empty texts are left out. -/
def ofWorksheet (w : Worksheet) : Sheet :=
  let cells := w.range.filterMap fun p =>
    ((w.valueAt p).text?.filter (· ≠ "")).map fun text => (p.name, text)
  let w := w.afterScan
  ofTexts w.rows w.columns (.ofList cells)

/-- The sheet of the worksheet that a title selects. -/
def ofWorkbook (b : Workbook) (title : Option String) : Except Error Sheet :=
  (b.select title).map ofWorksheet

end Spreadsheet.Sheet
