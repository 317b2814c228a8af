/-!
# Decimal numbers

A decimal number is a sign, a coefficient and an exponent, and stands for
`± coefficient * 10 ^ exponent`. Two decimals may stand for one rational number and still differ:
`1.5` and `1.50` have different exponents, `0` and `-0` different signs. Operations and written
forms keep such numbers apart, comparisons do not.

## Main definitions

* `Decimal` — sign, coefficient and exponent.
* `Decimal.adjusted` — the exponent of the leading digit.
* `Decimal.coefficientAt` — the coefficient on a finer scale.
* `Decimal.compare` — the order of the rational numbers that two decimals stand for.
-/

namespace Spreadsheet

/-- The number `± coefficient * 10 ^ exponent`. -/
structure Decimal where
  negative : Bool
  coefficient : Nat
  exponent : Int
deriving DecidableEq, Repr, Inhabited

namespace Decimal

/-- The number of digits that a natural number is written with; `0` has one digit. -/
def digitCount (n : Nat) : Nat :=
  (Nat.toDigits 10 n).length

/-- A natural number as a decimal with exponent zero. -/
def ofNat (n : Nat) : Decimal :=
  ⟨false, n, 0⟩

/-- Both signed zeros of every exponent are zero. -/
def isZero (d : Decimal) : Bool :=
  d.coefficient == 0

/-- The number with the opposite sign; a zero changes its sign too. -/
def neg (d : Decimal) : Decimal :=
  { d with negative := !d.negative }

/-- The exponent of the leading digit, that is the exponent in scientific notation. -/
def adjusted (d : Decimal) : Int :=
  d.exponent + (digitCount d.coefficient - 1)

/-- The coefficient when the exponent is lowered to `e`. Of zero it is zero at every exponent,
without a power of ten being formed. -/
def coefficientAt (d : Decimal) (e : Int) : Nat :=
  -- by its name, since `^` is the power of a monoid wherever one is known
  if d.coefficient = 0 then 0 else d.coefficient * Nat.pow 10 (d.exponent - e).toNat

/-- The signed coefficient when the exponent is lowered to `e`. -/
def signedAt (d : Decimal) (e : Int) : Int :=
  if d.negative then -(d.coefficientAt e : Int) else d.coefficientAt e

/-- The sign of the number: `-1`, `0` or `1`. -/
def sign (d : Decimal) : Int :=
  if d.isZero then 0 else if d.negative then -1 else 1

/-- The order of the absolute values of two nonzero numbers. The leading digits decide first, so
that coefficients are aligned only when their lengths are close. -/
def compareMagnitude (a b : Decimal) : Ordering :=
  let e := min a.exponent b.exponent
  (Ord.compare a.adjusted b.adjusted).then (Ord.compare (a.coefficientAt e) (b.coefficientAt e))

/-- The order of two numbers as rationals. -/
def compare (a b : Decimal) : Ordering :=
  if a.sign ≠ b.sign then Ord.compare a.sign b.sign
  else if a.isZero then .eq
  else if a.negative then b.compareMagnitude a
  else a.compareMagnitude b

end Decimal

end Spreadsheet
