import Spreadsheet.Sheet.Basic

/-!
# Displaying a sheet

A grid shows formulas either as they were typed or by their values. A formula that cannot be
computed shows a marker. Texts that are no formulas are always shown as they were typed.

## Main definitions

* `Sheet.display` — what a cell shows.
* `Sheet.displayGrid` — what all cells show.
* `Sheet.isCalculationResult` — whether a text is what the value of a cell looks like.
* `Sheet.frame` — the grid as a table with labels.
-/

namespace Spreadsheet

/-- Shown for a formula that refers to itself. -/
def cycleMarker : String :=
  "Cycle"

/-- Shown for a formula that has another error. -/
def errorMarker : String :=
  "Error"

/-- What is shown for an error of a formula; other errors are not shown. -/
def Error.marker (e : Error) : Except Error String :=
  if e.category = .cycleDetected then .ok cycleMarker
  else if e.isFormulaError then .ok errorMarker
  else .error e

namespace Sheet

/-- Whether a text is a formula. -/
def isFormula (text : String) : Bool :=
  text.toList.head? = some '='

/-- What a cell shows, with formulas as values or as typed. -/
def display (s : Sheet) (showValues : Bool) (name : String) : Except Error String :=
  let text := s.get name
  if !showValues || !isFormula text then .ok text
  else
    match s.value name with
    | .ok v => .ok v.display
    | .error e => e.marker

/-- What all cells of the grid show, row by row. -/
def displayGrid (s : Sheet) (showValues : Bool) : Except Error (List (List String)) :=
  s.table (s.display showValues)

/-- Whether a text is what the value of a cell looks like. An editor takes such a text for an
unchanged cell. -/
def isCalculationResult (s : Sheet) (name text : String) : Except Error Bool :=
  match s.value name with
  | .ok v => .ok (text = v.display)
  | .error e => if e.isFormulaError then .ok false else .error e

/-- A table whose columns have labels and whose rows have numbers. -/
structure Frame where
  columns : List String
  index : List Int
  rows : List (List String)
deriving DecidableEq, Repr, Inhabited

/-- The grid as it is displayed. -/
def frame (s : Sheet) (showValues : Bool) : Except Error Frame := do
  let rows ← s.displayGrid showValues
  let labels ← s.namedColumns.mapM Column.name
  if Column.last < s.columns then .error (.unnamedColumn (Column.last + 1))
  else .ok ⟨labels, upTo s.rows, rows⟩

end Sheet

end Spreadsheet
