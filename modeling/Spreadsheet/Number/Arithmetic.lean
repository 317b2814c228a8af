import Spreadsheet.Decimal.Arithmetic
import Spreadsheet.Number.Basic

/-!
# Arithmetic of numbers

The arithmetic of decimals, extended to infinities and NaNs. A NaN among the operands is the
result, unless it is signaling. An operation on infinities is defined where all large numbers agree
on its result.

## Main definitions

* `Number.add`, `Number.sub`, `Number.mul`, `Number.div`, `Number.rem`, `Number.truncate`
* `Number.compare?` — the order of two numbers, neither of which is a NaN.
-/

namespace Spreadsheet.Number

open Decimal (Signal)

/-- A NaN with no more digits of its payload than the precision, the last ones. -/
def shorten : Number → Number
  | nan negative signaling payload =>
    nan negative signaling (payload % Nat.pow 10 Decimal.format.precision)
  | n => n

/-- The result of an operation on two numbers, one of which is a NaN. -/
def ofNaN (a b : Number) : Except Signal Number :=
  if a.isSignaling || b.isSignaling then .error .invalidOperation
  else .ok (if a.isNaN then a.shorten else b.shorten)

/-- The number with the opposite sign; a NaN is left as it is. -/
def neg : Number → Number
  | finite d => finite d.neg
  | infinite negative => infinite (!negative)
  | n => n

/-- The sum. Opposite infinities have none. -/
def add (a b : Number) : Except Signal Number :=
  match a, b with
  | finite x, finite y => (x.add y).map finite
  | infinite s, infinite t => if s = t then .ok a else .error .invalidOperation
  | infinite _, finite _ => .ok a
  | finite _, infinite _ => .ok b
  | _, _ => ofNaN a b

/-- The difference. -/
def sub (a b : Number) : Except Signal Number :=
  add a b.neg

/-- The product. Zero times infinity has none. -/
def mul (a b : Number) : Except Signal Number :=
  match a, b with
  | finite x, finite y => (x.mul y).map finite
  | infinite s, infinite t => .ok (infinite (s != t))
  | infinite s, finite x | finite x, infinite s =>
    if x.isZero then .error .invalidOperation else .ok (infinite (s != x.negative))
  | _, _ => ofNaN a b

/-- The quotient by a number that is not zero. That by an infinity is the least zero. -/
def div (a b : Number) : Except Signal Number :=
  match a, b with
  | finite x, finite y => (x.div y).map finite
  | infinite _, infinite _ => .error .invalidOperation
  | infinite s, finite y => .ok (infinite (s != y.negative))
  | finite x, infinite t => .ok (finite ⟨x.negative != t, 0, Decimal.format.leastExponent⟩)
  | _, _ => ofNaN a b

/-- The remainder of the division by a number that is not zero. -/
def rem (a b : Number) : Except Signal Number :=
  match a, b with
  | finite x, finite y => (x.rem y).map finite
  | infinite _, infinite _ | infinite _, finite _ => .error .invalidOperation
  | finite x, infinite _ => (Decimal.round x).map finite
  | _, _ => ofNaN a b

/-- The integer part. -/
def truncate : Number → Number
  | finite d => finite d.truncate
  | n => n

/-- The order of two numbers. NaNs have none. -/
def compare? : Number → Number → Option Ordering
  | finite a, finite b => some (a.compare b)
  | infinite s, infinite t => some (if s = t then .eq else if s then .lt else .gt)
  | infinite s, finite _ => some (if s then .lt else .gt)
  | finite _, infinite t => some (if t then .gt else .lt)
  | _, _ => none

/-- Whether two numbers are equal. A NaN equals nothing. -/
def equals (a b : Number) : Except Signal Bool :=
  if a.isSignaling || b.isSignaling then .error .invalidOperation
  else .ok (a.compare? b == some .eq)

/-- Whether the order of two numbers satisfies a condition. -/
def isOrdered (a : Number) (condition : Ordering → Bool) (b : Number) : Except Signal Bool :=
  match a.compare? b with
  | some o => .ok (condition o)
  | none => .error .invalidOperation

end Spreadsheet.Number
