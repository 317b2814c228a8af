import Spreadsheet.Cell.Name
import Spreadsheet.Formula.Evaluate
import Spreadsheet.OrderedMap

/-!
# Values of cells in a grid

The value of a cell follows from its text and from the cells that its text refers to. Resolving a
cell keeps the chain of cells that are being resolved above it: a cell that occurs in its own
chain lies on a cycle, and chains have a greatest length.

## Main definitions

* `Entry` — what the text of a cell says.
* `CellTexts` — texts of cells under their names.
* `Grid` — the extent of a grid and the texts of its cells.
* `Grid.resolve` — the value of a cell.
* `Grid.evaluate` — the value of an expression over the cells of a grid.
-/

namespace Spreadsheet

/-! ## What cells say -/

/-- What the text of a cell says. -/
inductive Entry
  /-- The cell holds nothing. -/
  | empty
  /-- The cell holds a number or a text. -/
  | literal (v : Value)
  /-- The cell has the value of another one, be it a number or a text. -/
  | reference (name : String)
  /-- The cell has the value of a formula. -/
  | formula (body : String)
deriving DecidableEq, Repr, Inhabited

/-- What a text says: after an equals sign a formula, or a reference if nothing but one cell name
follows. -/
def Entry.ofText (text : String) : Entry :=
  match text.toList with
  | [] => empty
  | '=' :: body =>
    match CellName.aliasTarget? text with
    | some name => reference name
    | none => formula (String.ofList body)
  | _ => literal (Value.ofText text)

/-! ## Texts -/

/-- The texts of cells under their names in upper case. -/
abbrev CellTexts := OrderedMap String String

/-- The texts of a map whose names may be in any case. Of names that differ in case only, the first
place and the last text count. -/
def CellTexts.ofMap (m : OrderedMap String String) : CellTexts :=
  .ofList (m.entries.map fun e => (Text.upper e.1, e.2))

/-! ## Grids -/

/-- A grid: the numbers of its rows and columns, and the texts of its cells by their names in
upper case. -/
structure Grid where
  rows : Int
  columns : Int
  text? : String → Option String

namespace Grid

/-- The greatest length of a chain if none is given. -/
def defaultLimit : Int :=
  200

/-- Whether a position lies in the grid. -/
def holds (g : Grid) (row column : Int) : Bool :=
  1 ≤ row && row ≤ g.rows && 1 ≤ column && column ≤ g.columns

/-- What a cell says; a cell without text says nothing. -/
def entry (g : Grid) (name : String) : Entry :=
  ((g.text? name).map Entry.ofText).getD .empty

/-- Checks that a name is that of a cell in the grid. -/
def checkName (g : Grid) (name : String) : Except Error Unit := do
  let (row, column) ← CellName.split name
  if g.holds row column then .ok () else .error (.outsideGrid name g.rows g.columns)

/-- The value of a cell below the cells of the chain `visited`, while the chain may grow by as
many cells as the number says. The cells whose texts are read are traced. -/
def resolveBelow (g : Grid) (limit : Int) : Nat → List String → String → Traced Value
  | 0, visited, name =>
    let name := Text.upper name
    if visited.contains name then .fail (.cycle (visited ++ [name]))
    else .fail (.chainTooLong (visited ++ [name]) limit)
  | more + 1, visited, name =>
    let name := Text.upper name
    if visited.contains name then .fail (.cycle (visited ++ [name]))
    else do
      g.checkName name
      match ← .lookup name (.ok (g.entry name)) with
      | .empty => pure .zero
      | .literal v => pure v
      | .reference target => resolveBelow g limit more (visited ++ [name]) target
      | .formula body => do
        let tokens ← postorder body
        Machine.run (resolveBelow g limit more (visited ++ [name])) tokens

/-- The value of a cell, traced. -/
def resolveTraced (g : Grid) (limit : Int) (name : String) : Traced Value :=
  g.resolveBelow limit limit.toNat [] name

/-- The value of an expression over the cells of the grid, traced. -/
def evaluateTraced (g : Grid) (limit : Int) (expression : String) : Traced Value :=
  Spreadsheet.evaluate (g.resolveTraced limit) expression

/-- The value of a cell, with chains of at most `limit` cells. -/
def resolve (g : Grid) (limit : Int) (name : String) : Except Error Value :=
  (g.resolveTraced limit name).outcome

/-- The value of an expression over the cells of the grid. -/
def evaluate (g : Grid) (limit : Int) (expression : String) : Except Error Value :=
  (g.evaluateTraced limit expression).outcome

/-- The grid of some stored texts. -/
def ofTexts (rows columns : Int) (texts : CellTexts) : Grid :=
  ⟨rows, columns, fun name => texts.get? (Text.upper name)⟩

end Grid

end Spreadsheet
