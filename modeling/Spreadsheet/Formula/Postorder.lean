import Spreadsheet.Formula.Lexer
import Spreadsheet.Formula.Operator

/-!
# Postorder

In postorder every operator follows its operands, so parentheses are not needed. Operands keep
their places; an operator waits on a stack until one that binds less tightly, or as tightly,
comes, or its group or the formula ends. A function waits below the parenthesis that opens its
operand and follows that group.

## Main definitions

* `toPostorder` — the tokens of a formula in postorder.
* `postorder` — the tokens of the text of a formula in postorder.
-/

namespace Spreadsheet

/-- The tokens that wait at the end of a formula, the last to come first. None of them may be a
parenthesis. -/
def drain (stack : List Token) : Except Error (List Token) :=
  match stack.find? (·.kind = .openParen) with
  | some t => .error (.unclosedParenthesis t.position)
  | none => .ok stack

/-- Whether a waiting token goes before an operator: it binds as tightly or more. -/
def yieldsTo (op t : Token) : Bool :=
  rank op.text ≤ rank t.text

/-- What is left of the stack after a group, and the tokens that leave it: those above the opening
parenthesis `stack` begins with, and the function below it. -/
def closeGroup? (stack : List Token) : Option (List Token × List Token) :=
  let inner := stack.takeWhile (·.kind ≠ .openParen)
  match stack.dropWhile (·.kind ≠ .openParen) with
  | [] => none
  | _ :: f :: rest =>
    if f.kind = .function then some (inner ++ [f], rest) else some (inner, f :: rest)
  | [_] => some (inner, [])

/-- The postorder of the tokens to come, while those on the stack wait. -/
def postorderFrom : List Token → List Token → Except Error (List Token)
  | stack, [] => drain stack
  | stack, t :: ts =>
    match t.kind with
    | .number | .cell => (postorderFrom stack ts).map (t :: ·)
    | .function | .openParen => postorderFrom (t :: stack) ts
    | .operator =>
      (postorderFrom (t :: stack.dropWhile (yieldsTo t)) ts).map
        (stack.takeWhile (yieldsTo t) ++ ·)
    | .closeParen =>
      match closeGroup? stack with
      | none => .error (.unexpectedParenthesis t.position)
      | some (leaving, rest) => (postorderFrom rest ts).map (leaving ++ ·)

/-- The tokens of a formula in postorder. -/
def toPostorder (tokens : List Token) : Except Error (List Token) :=
  postorderFrom [] tokens

/-- The tokens of the text of a formula in postorder. -/
def postorder (formula : String) : Except Error (List Token) :=
  tokenize formula >>= toPostorder

end Spreadsheet
