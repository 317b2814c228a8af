import Spreadsheet.Decimal.Notation
import Spreadsheet.Decimal.Numeral

/-!
# Numbers

An operand is a decimal, an infinity or a NaN, which is no number at all. Literals and the results
of operations on decimals are always finite; the other numbers come from numerals that name them
and from operations on such numbers.

## Main definitions

* `Number` — finite decimals, infinities and NaNs.
* `Number.ofNumeral?` — the lenient numerals, those of infinities and NaNs included.
* `Number.toScientific`, `Number.toPlain`, `Number.toDisplay` — the written forms.
-/

namespace Spreadsheet

/-- A decimal, an infinity or a NaN. -/
inductive Number
  | finite (d : Decimal)
  | infinite (negative : Bool)
  /-- No number. The sign and the payload have no meaning, but operations hand them on. A signaling
  NaN is refused by all operations. -/
  | nan (negative signaling : Bool) (payload : Nat)
deriving DecidableEq, Repr, Inhabited

namespace Number

/-- A natural number. -/
def ofNat (n : Nat) : Number :=
  finite (.ofNat n)

/-- Whether a number is one of the zeros. -/
def isZero : Number → Bool
  | finite d => d.isZero
  | _ => false

/-- Whether a number is a NaN. -/
def isNaN : Number → Bool
  | nan _ _ _ => true
  | _ => false

/-- Whether a number is a signaling NaN. -/
def isSignaling : Number → Bool
  | nan _ signaling _ => signaling
  | _ => false

/-! ## Numerals -/

/-- The number that a word stands for, in which digits may follow the word for a NaN. -/
def ofWord? (negative : Bool) (word : List Char) : Option Number :=
  let ofPayload (signaling : Bool) (digits : List Char) : Option Number :=
    if digits.all Char.isDigit then some (nan negative signaling (Numeral.value digits)) else none
  match word with
  | ['i', 'n', 'f'] | ['i', 'n', 'f', 'i', 'n', 'i', 't', 'y'] => some (infinite negative)
  | 'n' :: 'a' :: 'n' :: digits => ofPayload false digits
  | 's' :: 'n' :: 'a' :: 'n' :: digits => ofPayload true digits
  | _ => none

/-- The value of a lenient numeral. The case of letters does not matter. -/
def ofNumeral? (s : String) : Option Number :=
  match Decimal.ofNumeral? s with
  | some d => some (finite d)
  | none =>
    let (negative, word) := Numeral.takeSign (Numeral.plain s)
    ofWord? negative (word.map Char.toLower)

/-! ## Written forms -/

/-- The form of a number in which finite ones are written by `form`. -/
def write (form : Decimal → String) : Number → String
  | finite d => form d
  | infinite negative => (if negative then "-" else "") ++ "Infinity"
  | nan negative signaling payload =>
    (if negative then "-" else "") ++ (if signaling then "sNaN" else "NaN") ++
      if payload = 0 then "" else Decimal.digitText payload

/-- The form from which the number can be read off exactly. -/
def toScientific : Number → String :=
  write Decimal.toScientific

/-- The form without an exponent. -/
def toPlain : Number → String :=
  write Decimal.toPlain

/-- The form that a grid shows. -/
def toDisplay : Number → String :=
  write Decimal.toDisplay

end Number

end Spreadsheet
