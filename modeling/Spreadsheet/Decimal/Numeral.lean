import Spreadsheet.Decimal.Basic
import Spreadsheet.Decimal.Rounding
import Spreadsheet.Text.Blank
import Spreadsheet.Text.DecimalDigit

/-!
# Numerals

Reading decimal numbers. A plain numeral is a sign, digits with at most one point, and an
exponent; the point is the only separator and the digits are those of ASCII. Sign, point and
exponent may be missing, but not all the digits.

A literal is a plain numeral, possibly between white space, whose value lies in the range of the
arithmetic. A lenient numeral may have digits of any script and underscores among them; its
value need only be representable.

## Main definitions

* `Numeral.parse?` — the plain numerals.
* `Decimal.ofLiteral?` — the literals of cells and formulas.
* `Decimal.ofNumeral?` — the lenient numerals.
-/

namespace Spreadsheet

namespace Numeral

/-- The value of a digit of ASCII. -/
def digitValue (c : Char) : Nat :=
  c.toNat - '0'.toNat

/-- The number that digits of ASCII are written for. -/
def value (digits : List Char) : Nat :=
  digits.foldl (fun n c => 10 * n + digitValue c) 0

/-- The sign at the head of a numeral, and what follows it. -/
def takeSign : List Char → Bool × List Char
  | '-' :: s => (true, s)
  | '+' :: s => (false, s)
  | s => (false, s)

/-- The digits at the head, and what follows them. -/
def takeDigits (s : List Char) : List Char × List Char :=
  (s.takeWhile Char.isDigit, s.dropWhile Char.isDigit)

/-- The digits before and after the point, and what follows them. -/
def takeCoefficient (s : List Char) : List Char × List Char × List Char :=
  let (whole, s) := takeDigits s
  match s with
  | '.' :: s =>
    let (fraction, s) := takeDigits s
    (whole, fraction, s)
  | _ => (whole, [], s)

/-- The exponent that fills the rest of a numeral; it is zero if nothing is left. -/
def exponent? : List Char → Option Int
  | [] => some 0
  | c :: s =>
    if c = 'e' ∨ c = 'E' then
      let (negative, s) := takeSign s
      let (digits, s) := takeDigits s
      if digits.isEmpty ∨ !s.isEmpty then none
      else some (if negative then -(value digits : Int) else value digits)
    else
      none

/-- The value of a plain numeral. -/
def parse? (s : List Char) : Option Decimal :=
  let (negative, s) := takeSign s
  let (whole, fraction, s) := takeCoefficient s
  if whole.isEmpty ∧ fraction.isEmpty then none
  else
    (exponent? s).map fun e =>
      ⟨negative, value (whole ++ fraction), e - fraction.length⟩

/-- A digit of any script as a digit of ASCII; other characters are left as they are. -/
def plainDigit (c : Char) : Char :=
  match Text.decimalDigit? c with
  | some n => n.digitChar
  | none => c

/-- A lenient numeral with digits of ASCII, without underscores and without white space at its
ends. -/
def plain (s : String) : List Char :=
  ((Text.trimChars s.toList).filter (· ≠ '_')).map plainDigit

end Numeral

namespace Decimal

/-- The greatest exponent of a zero and of the leading digit of any other number. -/
def greatestExponent : Int :=
  999999999999999999

/-- The least exponent of a number. -/
def leastExponent : Int :=
  -1999999999999999997

/-- Whether a number can be represented. -/
def isRepresentable (d : Decimal) : Bool :=
  leastExponent ≤ d.exponent &&
    (if d.isZero then d.exponent else d.adjusted) ≤ greatestExponent

/-- Whether a number lies in the range of normal numbers of the format. -/
def isNormal (d : Decimal) : Bool :=
  format.minExponent ≤ d.adjusted && d.adjusted ≤ format.maxExponent

/-- The value of a text that is a literal. A zero must be representable, and any other number
normal. -/
def ofLiteral? (s : String) : Option Decimal :=
  (Numeral.parse? (Text.trimChars s.toList)).filter fun d =>
    if d.isZero then d.isRepresentable else d.isNormal

/-- A zero whose exponent is too low gets the least one. -/
def raiseZero (d : Decimal) : Decimal :=
  if d.isZero then { d with exponent := max leastExponent d.exponent } else d

/-- The value of a lenient numeral. A number with an exponent must be representable. A number
without one is no longer than its digits, and has a value in any case. -/
def ofNumeral? (s : String) : Option Decimal :=
  let plain := Numeral.plain s
  if plain.contains 'e' || plain.contains 'E' then
    (Numeral.parse? plain).filter isRepresentable
  else
    (Numeral.parse? plain).map raiseZero

end Decimal

end Spreadsheet
