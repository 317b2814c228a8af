import Spreadsheet.Error
import Spreadsheet.Number.Arithmetic

/-!
# Operators and functions of formulas

## Main definitions

* `BinaryOperator` — arithmetic and comparison operators, with `BinaryOperator.apply`.
* `UnaryFunction` — the functions `inc` and `dec`, with `UnaryFunction.apply`.
* `rank` — how tightly a symbol binds.
-/

namespace Spreadsheet

/-! ## Binary operators -/

/-- The operators of formulas. -/
inductive BinaryOperator
  | add | sub | mul | div | mod | quotient
  | eq | ne | lt | gt | le | ge
deriving DecidableEq, Repr, Inhabited

namespace BinaryOperator

/-- The symbol or word of an operator. -/
def symbol : BinaryOperator → String
  | add => "+"
  | sub => "-"
  | mul => "*"
  | div => "/"
  | mod => "mod"
  | quotient => "div"
  | eq => "="
  | ne => "<>"
  | lt => "<"
  | gt => ">"
  | le => "<="
  | ge => ">="

/-- All operators. -/
def all : List BinaryOperator :=
  [add, sub, mul, div, mod, quotient, eq, ne, lt, gt, le, ge]

/-- The operator that a symbol stands for. -/
def ofSymbol? (s : String) : Option BinaryOperator :=
  all.find? (·.symbol == s)

/-- An arithmetic result, whose signal is an error of the formula. -/
def ofArithmetic (r : Except Decimal.Signal Number) : Except Error Number :=
  r.mapError .arithmetic

/-- The result of a comparison: a truth value is the number one or zero. -/
def ofComparison (r : Except Decimal.Signal Bool) : Except Error Number :=
  ofArithmetic (r.map fun b => .ofNat (if b then 1 else 0))

/-- A division, which a zero divisor forbids. -/
def unlessZero (op : BinaryOperator) (divisor : Number) (r : Except Decimal.Signal Number) :
    Except Error Number :=
  if divisor.isZero then .error (.divideByZero op.symbol) else ofArithmetic r

/-- The result of an operator. Comparisons are exact. The integer quotient is the rounded
quotient without its fraction, so a quotient that rounds up to an integer yields that integer. -/
def apply (op : BinaryOperator) (a b : Number) : Except Error Number :=
  match op with
  | add => ofArithmetic (a.add b)
  | sub => ofArithmetic (a.sub b)
  | mul => ofArithmetic (a.mul b)
  | div => op.unlessZero b (a.div b)
  | mod => op.unlessZero b (a.rem b)
  | quotient => op.unlessZero b ((a.div b).map Number.truncate)
  | eq => ofComparison (a.equals b)
  | ne => ofComparison ((a.equals b).map (!·))
  | lt => ofComparison (a.isOrdered (· == .lt) b)
  | gt => ofComparison (a.isOrdered (· == .gt) b)
  | le => ofComparison (a.isOrdered (· != .gt) b)
  | ge => ofComparison (a.isOrdered (· != .lt) b)

end BinaryOperator

/-! ## Functions -/

/-- The functions of formulas. -/
inductive UnaryFunction
  | inc | dec
deriving DecidableEq, Repr, Inhabited

namespace UnaryFunction

/-- The name of a function. -/
def symbol : UnaryFunction → String
  | inc => "inc"
  | dec => "dec"

/-- The function that a name stands for. -/
def ofSymbol? (s : String) : Option UnaryFunction :=
  [inc, dec].find? (·.symbol == s)

/-- The result of a function: one more or one less than the operand. -/
def apply (f : UnaryFunction) (a : Number) : Except Error Number :=
  .mapError .arithmetic <|
    match f with
    | inc => a.add (.ofNat 1)
    | dec => a.sub (.ofNat 1)

end UnaryFunction

/-! ## Ranks -/

/-- How tightly an operator binds. -/
def BinaryOperator.rank : BinaryOperator → Nat
  | mul | div | mod | quotient => 3
  | add | sub => 2
  | eq | ne | lt | gt | le | ge => 1

/-- How tightly a symbol binds: functions bind most, and what is no operator and no function,
such as a parenthesis, does not bind at all. -/
def rank (s : String) : Nat :=
  if (UnaryFunction.ofSymbol? s).isSome then 4
  else ((BinaryOperator.ofSymbol? s).map BinaryOperator.rank).getD 0

end Spreadsheet
