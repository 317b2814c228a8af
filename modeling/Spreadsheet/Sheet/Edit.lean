import Spreadsheet.Sheet.Basic

/-!
# Editing a sheet

Edits store and clear texts and move the borders of the grid. An edit that changes something
marks the sheet. An edit may fail after a part of it has been done, so its result is the sheet
that it leaves, together with the error if there is one.

## Main definitions

* `Edit` — the edits; `Sheet.edit` — their effect.
* `Edited` — the sheet after an edit, and the error.
-/

namespace Spreadsheet

/-- The sheet after an edit, and the error if the edit failed. -/
structure Edited where
  sheet : Sheet
  error? : Option Error
deriving DecidableEq, Inhabited

/-- A change to a sheet. -/
inductive Edit
  | set (name text : String)
  | clear (name : String)
  | addRow
  | addColumn
  | deleteRow
  | deleteColumn
deriving DecidableEq, Repr, Inhabited

namespace Sheet

/-- The sheet without unsaved changes. -/
def markClean (s : Sheet) : Sheet :=
  { s with dirty := false }

/-- An edit that succeeded. -/
def done (s : Sheet) : Edited :=
  ⟨s, none⟩

/-- Stores a text under the name of a cell, in upper case and as it is spelled. Storing the text
that the cell has anyway, the empty text of an empty cell included, is no change. -/
def set (s : Sheet) (name text : String) : Edited :=
  let name := Text.upper name
  match CellName.split name with
  | .error e => ⟨s, some e⟩
  | .ok _ =>
    if s.get name = text then s.done
    else { s with cells := s.cells.insert name text, dirty := true }.done

/-- Removes what is stored under a name. -/
def clear (s : Sheet) (name : String) : Edited :=
  let name := Text.upper name
  if s.cells.contains name then { s with cells := s.cells.erase name, dirty := true }.done
  else s.done

/-- Adds a row at the bottom. -/
def addRow (s : Sheet) : Edited :=
  { s with rows := s.rows + 1, dirty := true }.done

/-- Adds a column at the right. -/
def addColumn (s : Sheet) : Edited :=
  { s with columns := s.columns + 1, dirty := true }.done

/-- The names of the cells of the last row, as far as its columns have letters. -/
def lastRowNames (s : Sheet) : List String :=
  s.namedColumns.filterMap fun column => (CellName.ofPosition s.rows column).toOption

/-- Removes the last row and what is stored in it. A row with more columns than there are letters
for is cleared but cannot be removed. -/
def deleteRow (s : Sheet) : Edited :=
  if s.rows = 0 then s.done
  else
    let cleared := { s with cells := s.cells.eraseAll s.lastRowNames }
    if Column.last < s.columns then ⟨cleared, some (.unnamedColumn (Column.last + 1))⟩
    else { cleared with rows := s.rows - 1, dirty := true }.done

/-- Removes the last column and what is stored in it. A column without letters cannot be removed
from a grid with rows. -/
def deleteColumn (s : Sheet) : Edited :=
  let removed := { s with columns := s.columns - 1, dirty := true }
  if s.columns = 0 then s.done
  else if s.rows ≤ 0 then removed.done
  else
    match Column.name s.columns with
    | .error e => ⟨s, some e⟩
    | .ok letters =>
      let names := (upTo s.rows).map fun row => letters ++ Text.ofInt row
      { removed with cells := s.cells.eraseAll names }.done

/-- The effect of an edit. -/
def edit (s : Sheet) : Edit → Edited
  | .set name text => s.set name text
  | .clear name => s.clear name
  | .addRow => s.addRow
  | .addColumn => s.addColumn
  | .deleteRow => s.deleteRow
  | .deleteColumn => s.deleteColumn

/-- The sheet after several edits, failed ones included. -/
def editAll (s : Sheet) (edits : List Edit) : Sheet :=
  edits.foldl (fun s e => (s.edit e).sheet) s

end Sheet

end Spreadsheet
