import Spreadsheet.Cell.Value
import Spreadsheet.Formula.Operator
import Spreadsheet.Formula.Token
import Spreadsheet.Formula.Traced

/-!
# The stack machine

Runs tokens in postorder. Operands go on a stack with their kind intact; an operator takes its
operands off the stack, converts them to numbers, the left one first, and leaves its result.

## Main definitions

* `Machine.step` — the effect of one token on the stack.
* `Machine.run` — the value of tokens in postorder.
-/

namespace Spreadsheet.Machine

/-- The value of a numeral. -/
def numeral (text : String) : Except Error Value :=
  match Number.ofNumeral? text with
  | some n => .ok (.number n)
  | none => .error (.arithmetic .invalidOperation)

/-- A text with a comma may not enter a computation. -/
def checkComma (name : String) (v : Value) : Except Error Value :=
  match v with
  | .text s => if s.toList.contains ',' then .error (.commaInCell name) else .ok v
  | v => .ok v

/-- The failure to compute a result within the range of numbers. -/
def rangeError (outOfRange : Error) : Error → Error
  | .arithmetic _ => outOfRange
  | e => e

/-- The result of a function. -/
def applyFunction (name : String) (operand : Value) : Except Error Value := do
  let a ← operand.toNumber
  match UnaryFunction.ofSymbol? name with
  | none => .error (.unknownSymbol name)
  | some f => ((f.apply a).mapError (rangeError (.functionOutOfRange name a))).map .number

/-- The result of an operator. -/
def applyOperator (symbol : String) (left right : Value) : Except Error Value :=
  match BinaryOperator.ofSymbol? symbol with
  | none => .error (.unknownSymbol symbol)
  | some op => do
    let a ← left.toNumber
    let b ← right.toNumber
    ((op.apply a b).mapError (rangeError (.operatorOutOfRange symbol a b))).map .number

/-- The effect of one token on the stack, whose first element is the top. -/
def step (resolve : String → Traced Value) (stack : List Value) (t : Token) :
    Traced (List Value) :=
  match t.kind with
  | .number => do
    let v ← numeral t.text
    return v :: stack
  | .cell => do
    let v ← resolve t.text
    let v ← checkComma t.text v
    return v :: stack
  | .function =>
    match stack with
    | operand :: stack => do
      let v ← applyFunction t.text operand
      return v :: stack
    | [] => .fail (.missingOperand t.text)
  | .operator =>
    match stack with
    | right :: left :: stack => do
      let v ← applyOperator t.text left right
      return v :: stack
    | _ => .fail (.missingOperands t.text)
  | .openParen | .closeParen => .fail (.unexpectedToken t.text t.position)

/-- The stack after several tokens. -/
def steps (resolve : String → Traced Value) : List Value → List Token → Traced (List Value)
  | stack, [] => pure stack
  | stack, t :: ts => do
    let stack ← step resolve stack t
    steps resolve stack ts

/-- The only value that a complete expression leaves. -/
def result : List Value → Except Error Value
  | [v] => .ok v
  | stack => .error (.leftoverValues stack.length)

/-- The value of tokens in postorder. -/
def run (resolve : String → Traced Value) (postorder : List Token) : Traced Value := do
  let stack ← steps resolve [] postorder
  result stack

end Spreadsheet.Machine
