import Spreadsheet.Csv.Reader
import Spreadsheet.Csv.Writer
import Spreadsheet.Sheet.Basic

/-!
# Sheets as comma-separated text

Every row of the grid is a record with one field for each column, which holds the text of the
cell. Texts stored outside the grid are left out. When a text is read, the records are the rows,
the widest one sets the number of columns, and empty fields leave their cells empty.

## Main definitions

* `Sheet.toCsv` — the grid as text.
* `Sheet.ofCsv` — the sheet that a text is written for.
-/

namespace Spreadsheet.Sheet

/-- The grid as comma-separated text. -/
def toCsv (s : Sheet) : Except Error String :=
  (s.table fun name => .ok (s.get name)).map Csv.write

/-- The names and texts of the fields of one row that are not empty. -/
def rowCells (row : Nat) (fields : List String) : Except Error (List (String × String)) :=
  (fields.zipIdx 1).filterMapM fun (text, column) =>
    if text = "" then .ok none
    else (CellName.ofPosition row column).map fun name => some (name, text)

/-- The names and texts of the fields of several rows that are not empty. -/
def recordCells (records : List (List String)) : Except Error (List (String × String)) := do
  return (← (records.zipIdx 1).mapM fun (fields, row) => rowCells row fields).flatten

/-- The width of the widest record. -/
def widest (records : List (List String)) : Nat :=
  records.foldl (fun n fields => max n fields.length) 0

/-- The sheet that a text is written for. The records before an error in the text are taken first,
so an error in one of them goes before it. -/
def ofCsv (text : String) : Except Error Sheet := do
  let reading := Csv.read text
  let cells ← recordCells reading.records
  match reading.error? with
  | some e => .error e
  | none => return ofTexts reading.records.length (widest reading.records) (.ofList cells)

end Spreadsheet.Sheet
