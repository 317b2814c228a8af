import Spreadsheet.Worksheet.Basic

/-!
# Looking at the cells of a worksheet

A worksheet changes when it is read: a cell of the used range that is looked at exists from then on.
So the value of a cell is found in a worksheet that changes while references are followed, and every
question about it goes to the worksheet that the looks before have left.

## Main definitions

* `Worksheet.getText` — the text of a cell.
* `Looking` — computations that look at the cells of a worksheet.
* `Worksheet.resolve`, `Worksheet.evaluate` — values of cells and expressions.
* `Worksheet.range`, `Worksheet.afterScan` — all cells of the used range.
-/

namespace Spreadsheet

namespace Worksheet

/-- The text of a named cell, and the worksheet after the look: within the used range, a cell that
was looked at exists. -/
def getText (w : Worksheet) (name : String) : Except Error (Option String) × Worksheet :=
  match CellName.split name with
  | .error e => (.error e, w)
  | .ok (row, column) =>
    if w.rows < row ∨ w.columns < column then (.ok none, w)
    else
      match Position.of row column with
      | .error e => (.error e, w)
      | .ok p => (.ok (w.valueAt p).text?, { w with blanks := p :: w.blanks })

/-- The used range as a grid for formulas. -/
def grid (w : Worksheet) : Grid :=
  ⟨w.rows, w.columns, fun name => (w.getText name).1.toOption.join⟩

/-- The positions of the used range, row by row. -/
def range (w : Worksheet) : List Position :=
  (List.range w.rows).flatMap fun row =>
    (List.range w.columns).filterMap fun column => (Position.of (row + 1) (column + 1)).toOption

/-- The worksheet after all cells of the used range were looked at. -/
def afterScan (w : Worksheet) : Worksheet :=
  { w with blanks := w.range ++ w.blanks }

end Worksheet

/-! ## Computations that look at cells -/

/-- A computation that looks at cells: its outcome, and the worksheet that it leaves, be it after a
failure. -/
abbrev Looking := ExceptT Error (StateM Worksheet)

namespace Looking

/-- The text of a named cell. -/
def text? (name : String) : Looking (Option String) :=
  fun w => w.getText name

/-- The stack of the machine after several tokens. A cell is resolved when its token comes. -/
def steps (resolve : String → Looking Value) : List Value → List Token → Looking (List Value)
  | stack, [] => pure stack
  | stack, t :: ts => do
    let v ← if t.kind = .cell then resolve t.text else pure .zero
    let stack ← (Machine.step (fun _ => pure v) stack t).outcome
    steps resolve stack ts

/-- The value of tokens in postorder. -/
def value (resolve : String → Looking Value) (postorder : List Token) : Looking Value := do
  let stack ← steps resolve [] postorder
  Machine.result stack

/-- The value of a cell by what its text says. -/
def eval (resolve : String → Looking Value) : Entry → Looking Value
  | .empty => pure .zero
  | .literal v => pure v
  | .reference target => resolve target
  | .formula body => do
    let tokens ← postorder body
    value resolve tokens

/-- The value of a cell below the cells of the chain `visited`, while the chain may grow by as many
cells as the number says. The used range is that of the moment at which the cell is checked. -/
def resolveBelow (limit : Int) : Nat → List String → String → Looking Value
  | 0, visited, name =>
    let name := Text.upper name
    if visited.contains name then throw (.cycle (visited ++ [name]))
    else throw (.chainTooLong (visited ++ [name]) limit)
  | more + 1, visited, name =>
    let name := Text.upper name
    if visited.contains name then throw (.cycle (visited ++ [name]))
    else do
      let w ← get
      w.grid.checkName name
      let text ← text? name
      eval (resolveBelow limit more (visited ++ [name])) ((text.map Entry.ofText).getD .empty)

/-- The value of a cell, with chains of at most `limit` cells. -/
def resolve (limit : Int) (name : String) : Looking Value :=
  resolveBelow limit limit.toNat [] name

/-- The value of an expression. -/
def evaluate (limit : Int) (expression : String) : Looking Value :=
  if Text.isBlankText expression then pure .zero
  else if expression.toList.contains ',' then throw .commaInFormula
  else
    match Decimal.ofLiteral? expression with
    | some d => pure (.decimal d)
    | none => eval (resolve limit) (.formula (withoutEquals expression))

end Looking

namespace Worksheet

/-- The value of a cell, and the worksheet after the cells that it depends on were looked at. -/
def resolve (w : Worksheet) (name : String) : Except Error Value × Worksheet :=
  (Looking.resolve Grid.defaultLimit name).run.run w

/-- The value of an expression over the cells of the used range, and the worksheet after they were
looked at. -/
def evaluate (w : Worksheet) (expression : String) : Except Error Value × Worksheet :=
  (Looking.evaluate Grid.defaultLimit expression).run.run w

end Worksheet

end Spreadsheet
