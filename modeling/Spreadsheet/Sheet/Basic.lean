import Spreadsheet.Grid

/-!
# Sheets

A sheet is a grid of cells with the texts that a user typed, and a mark that tells whether it has
changes that were not saved. Values are computed from the texts whenever they are asked for.

## Main definitions

* `Sheet` — extent, texts and mark.
* `Sheet.value`, `Sheet.evaluate` — values of cells and expressions.
* `Sheet.names` — the names of the cells of the grid.
-/

namespace Spreadsheet

/-- A grid of cells with texts. The extent is not bounded, and texts may be stored under names
outside of it. -/
structure Sheet where
  rows : Int
  columns : Int
  cells : CellTexts
  dirty : Bool
  /-- The greatest length of a chain of references. -/
  chainLimit : Int
deriving DecidableEq, Inhabited

namespace Sheet

/-- The extent of a new sheet if none is given. -/
def defaultExtent : Int :=
  5

/-- A sheet without unsaved changes. -/
def ofTexts (rows columns : Int) (cells : CellTexts) : Sheet :=
  ⟨rows, columns, cells, false, Grid.defaultLimit⟩

/-- The grid that formulas refer to. -/
def grid (s : Sheet) : Grid :=
  .ofTexts s.rows s.columns s.cells

/-- The stored text of a cell. -/
def text? (s : Sheet) (name : String) : Option String :=
  s.cells.get? (Text.upper name)

/-- The text of a cell, which is empty if none is stored. -/
def get (s : Sheet) (name : String) : String :=
  (s.text? name).getD ""

/-- The value of a cell. -/
def value (s : Sheet) (name : String) : Except Error Value :=
  s.grid.resolve s.chainLimit name

/-- The value of an expression over the cells of the sheet. -/
def evaluate (s : Sheet) (expression : String) : Except Error Value :=
  s.grid.evaluate s.chainLimit expression

/-- The numbers from one to `n`; there are none if `n` is not positive. -/
def upTo (n : Int) : List Int :=
  (List.range n.toNat).map fun (i : Nat) => (i : Int) + 1

/-- The columns of the sheet that have letters. -/
def namedColumns (s : Sheet) : List Int :=
  upTo (min s.columns Column.last)

/-- The row of a table: one item for each column of the sheet. The columns past the last one
with letters are an error, which is met after the others. -/
def rowOf {α : Type} (s : Sheet) (row : Int) (item : String → Except Error α) :
    Except Error (List α) := do
  let items ← s.namedColumns.mapM fun column => CellName.ofPosition row column >>= item
  if Column.last < s.columns then .error (.unnamedColumn (Column.last + 1)) else .ok items

/-- A table with one item for each cell of the grid, row by row. -/
def table {α : Type} (s : Sheet) (item : String → Except Error α) :
    Except Error (List (List α)) :=
  (upTo s.rows).mapM fun row => s.rowOf row item

/-- The names of the cells of the grid, row by row. -/
def names (s : Sheet) : Except Error (List String) :=
  (s.table .ok).map List.flatten

/-- A summary of the sheet. -/
def summary (s : Sheet) : String :=
  "Sheet(rows=" ++ Text.ofInt s.rows ++ ", columns=" ++ Text.ofInt s.columns ++ ", cells=" ++
    Decimal.digitText s.cells.size ++ ")"

end Sheet

end Spreadsheet
