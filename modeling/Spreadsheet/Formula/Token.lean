/-!
# Tokens

The words that formulas are made of.

## Main definitions

* `Token` — a piece of a formula with its kind and position.
-/

namespace Spreadsheet

/-- The kinds of tokens. -/
inductive Token.Kind
  | number
  | cell
  | operator
  | function
  | openParen
  | closeParen
deriving DecidableEq, Repr, Inhabited

/-- A token: its kind, its text and the position in the formula at which it begins. -/
structure Token where
  kind : Token.Kind
  text : String
  position : Int
deriving DecidableEq, Repr, Inhabited

/-- Numbers and cells are operands. -/
def Token.isOperand (t : Token) : Bool :=
  t.kind = .number || t.kind = .cell

/-- Opening and closing parentheses. -/
def Token.isParen (t : Token) : Bool :=
  t.kind = .openParen || t.kind = .closeParen

end Spreadsheet
