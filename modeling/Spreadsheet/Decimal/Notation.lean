import Spreadsheet.Decimal.Basic
import Spreadsheet.Decimal.Rounding

/-!
# Written forms of decimal numbers

## Main definitions

* `Decimal.toScientific` — the form that shows coefficient and exponent exactly.
* `Decimal.toPlain` — all digits, without an exponent.
* `Decimal.toDisplay` — the short form that a grid shows.
-/

namespace Spreadsheet.Decimal

/-- The minus sign of a negative number or a negative zero. -/
def signText (d : Decimal) : String :=
  if d.negative then "-" else ""

/-- The digits of a natural number. -/
def digitText (n : Nat) : String :=
  String.ofList (Nat.toDigits 10 n)

/-- A text of `n` zeros. -/
def zeros (n : Nat) : String :=
  String.ofList (List.replicate n '0')

/-- An integer with its sign, `+` included. -/
def signedText (n : Int) : String :=
  (if n < 0 then "-" else "+") ++ digitText n.natAbs

/-- The digits of `n` with a point before the last `places` of them; a number with too few
digits is filled up with zeros to one digit before the point. -/
def pointText (n places : Nat) : String :=
  let digits := Nat.toDigits 10 n
  let filled := List.replicate (places + 1 - digits.length) '0' ++ digits
  let whole := filled.length - places
  String.ofList (filled.take whole ++ '.' :: filled.drop whole)

/-- The form from which sign, coefficient and exponent can be read off. It is positional when
the exponent is not positive and no more than five zeros follow the point, otherwise one digit
stands before the point and the exponent is written out. -/
def toScientific (d : Decimal) : String :=
  d.signText ++
    if d.exponent = 0 then digitText d.coefficient
    else if d.exponent < 0 ∧ -6 ≤ d.adjusted then pointText d.coefficient (-d.exponent).toNat
    else
      let places := digitCount d.coefficient - 1
      (if places = 0 then digitText d.coefficient else pointText d.coefficient places) ++
        "E" ++ signedText d.adjusted

/-- The digits without an exponent. The exponent of a zero shows only as places after the
point. -/
def toPlain (d : Decimal) : String :=
  d.signText ++
    if d.exponent < 0 then pointText d.coefficient (-d.exponent).toNat
    else if d.isZero then "0"
    else digitText d.coefficient ++ zeros d.exponent.toNat

/-! ## Display -/

/-- How a grid shows numbers. -/
structure Display where
  /-- The greatest length of a number that is shown plainly. -/
  width : Nat
  /-- The digits after the point of a number that is shown with an exponent. -/
  places : Nat
  /-- The least number of digits of such an exponent. -/
  exponentDigits : Nat

/-- Up to ten characters are shown plainly; longer numbers have four places and an exponent of
three digits or more. -/
def display : Display :=
  ⟨10, 4, 3⟩

/-- The number with `places + 1` digits, a tie rounded to the even neighbour: the digits and the
exponent of the first of them. Shorter coefficients are filled up with zeros; for a zero the
places come on top of its exponent. -/
def significant (places : Nat) (d : Decimal) : Nat × Int :=
  if d.isZero then (0, d.exponent + places)
  else
    let surplus : Int := digitCount d.coefficient - (places + 1)
    let n := roundHalfEven (d.coefficient * Nat.pow 10 (-surplus).toNat) surplus.toNat
    if places + 1 < digitCount n then (n / 10, d.adjusted + 1) else (n, d.adjusted)

/-- The digits of `n`, filled up with zeros to at least `width` digits. -/
def paddedText (width n : Nat) : String :=
  let digits := Nat.toDigits 10 n
  String.ofList (List.replicate (width - digits.length) '0' ++ digits)

/-- The number with an exponent in the style of a display. -/
def Display.scientific (s : Display) (d : Decimal) : String :=
  let (n, e) := significant s.places d
  d.signText ++ pointText n s.places ++ "E" ++ (if e < 0 then "-" else "+") ++
    paddedText s.exponentDigits e.natAbs

/-- The number as a display shows it. A number whose leading digit is `width` or more places
from the point is too long to be shown plainly, so its plain form is not built. -/
def Display.render (s : Display) (d : Decimal) : String :=
  if d.adjusted.natAbs < s.width then
    let plain := d.toPlain
    if plain.length ≤ s.width then plain else s.scientific d
  else
    s.scientific d

/-- The number as the grid shows it. -/
def toDisplay (d : Decimal) : String :=
  display.render d

end Spreadsheet.Decimal
