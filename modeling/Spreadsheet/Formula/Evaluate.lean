import Spreadsheet.Formula.Machine
import Spreadsheet.Formula.Postorder

/-!
# Evaluation of formulas

## Main definitions

* `evaluate` — the value of the text of an expression, given the values of cells.
-/

namespace Spreadsheet

/-- The text without an equals sign at its head. -/
def withoutEquals (s : String) : String :=
  match s.toList with
  | '=' :: rest => String.ofList rest
  | _ => s

/-- The value of an expression, whose equals sign may be missing. A blank expression is zero, and
a literal is its own value. A comma is refused before anything else, so that no number with a
comma is taken for something else. -/
def evaluate (resolve : String → Traced Value) (expression : String) : Traced Value :=
  if Text.isBlankText expression then pure .zero
  else if expression.toList.contains ',' then .fail .commaInFormula
  else
    match Decimal.ofLiteral? expression with
    | some d => pure (.decimal d)
    | none => do
      let tokens ← postorder (withoutEquals expression)
      Machine.run resolve tokens

end Spreadsheet
