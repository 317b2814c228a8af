import Spreadsheet.Text.Blank
import Spreadsheet.Text.DecimalDigit

/-!
# Integers in text

Integers are written in decimal, with a minus sign if negative. They are read more liberally:
white space at the ends, a plus sign, digits of any script and single underscores between digits
are accepted. There is a limit to the number of digits that are read.

## Main definitions

* `ofInt` — the text of an integer.
* `toInt?` — the integer that a text is written for.
-/

namespace Spreadsheet.Text

/-- The decimal digits of an integer, after a minus sign if it is negative. -/
def ofInt (n : Int) : String :=
  (if n < 0 then "-" else "") ++ String.ofList (Nat.toDigits 10 n.natAbs)

/-- The greatest number of digits of an integer that is read. -/
def digitLimit : Nat :=
  4300

/-- Reads the remaining digits of a natural number of which `n` has been read. Only a digit may
precede an underscore or the end; `afterDigit` tells whether one does. -/
def natFrom? (n : Nat) (afterDigit : Bool) : List Char → Option Nat
  | [] => if afterDigit then some n else none
  | c :: s =>
    if c = '_' then if afterDigit then natFrom? n false s else none
    else (decimalDigit? c).bind fun d => natFrom? (10 * n + d) true s

/-- The natural number that digits and underscores are written for. -/
def toNat? (s : List Char) : Option Nat :=
  if digitLimit < (s.filter (· ≠ '_')).length then none else natFrom? 0 false s

/-- The integer that a text is written for. -/
def toInt? (s : String) : Option Int :=
  match trimChars s.toList with
  | '-' :: s => (toNat? s).map fun n => -(n : Int)
  | '+' :: s => (toNat? s).map fun n => (n : Int)
  | s => (toNat? s).map fun n => (n : Int)

end Spreadsheet.Text
