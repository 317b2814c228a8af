import Spreadsheet.Decimal.Basic

/-!
# Rounding to a decimal format

Results of arithmetic are exact numbers rounded once into a format of bounded precision and
bounded exponents. Ties go to the even neighbour. Numbers that are too small become subnormal,
or zero, on the grid of the least exponent; numbers that are too large signal an overflow.

## Main definitions

* `Decimal.Format` — precision and exponent range; `Decimal.format` is the one in use.
* `Decimal.Signal` — why an operation has no result.
* `Decimal.roundHalfEven` — a natural number without its last digits.
* `Decimal.round` — the number of the format that stands for an exact result.
-/

namespace Spreadsheet.Decimal

/-- A decimal format: the number of digits of a coefficient and the range of the exponent of the
leading digit of a normal number. -/
structure Format where
  precision : Nat
  minExponent : Int
  maxExponent : Int

/-- The exponent of the least subnormal number. -/
def Format.leastExponent (f : Format) : Int :=
  f.minExponent - (f.precision - 1)

/-- Results have 28 digits and a leading exponent within ±999999. -/
def format : Format :=
  ⟨28, -999999, 999999⟩

/-- Why an arithmetic operation has no result in the format. -/
inductive Signal
  /-- The rounded result is too large. -/
  | overflow
  /-- The operation is not defined on its operands. -/
  | invalidOperation
deriving DecidableEq, Repr, Inhabited

/-- `n / 10 ^ k` rounded to the nearest natural number, a tie to the even one. A number with
fewer than `k` digits is below a tenth of `10 ^ k`, so it rounds to zero. -/
def roundHalfEven (n k : Nat) : Nat :=
  if digitCount n < k then 0
  else
    let unit := Nat.pow 10 k
    let q := n / unit
    let twice := 2 * (n % unit)
    if unit < twice ∨ (twice = unit ∧ q % 2 = 1) then q + 1 else q

/-- The exponent at which a nonzero number fits the format: its own, or the first above it that
leaves no more than `precision` digits and is not below the least exponent. -/
def Format.targetExponent (f : Format) (d : Decimal) : Int :=
  max d.exponent (max (d.adjusted - (f.precision - 1)) f.leastExponent)

/-- A nonzero number rounded to the precision and to the grid of the least exponent. Rounding up
to a power of ten may add a digit, which the exponent then absorbs. -/
def Format.fit (f : Format) (d : Decimal) : Decimal :=
  let e := f.targetExponent d
  let n := roundHalfEven d.coefficient (e - d.exponent).toNat
  if f.precision < digitCount n then ⟨d.negative, n / 10, e + 1⟩ else ⟨d.negative, n, e⟩

/-- The number of the format that stands for the exact result `d`. Zeros keep their sign and an
exponent in range. -/
def Format.round (f : Format) (d : Decimal) : Except Signal Decimal :=
  if d.isZero then
    .ok { d with exponent := max f.leastExponent (min d.exponent f.maxExponent) }
  else
    let r := f.fit d
    if f.maxExponent < r.adjusted then .error .overflow else .ok r

/-- An exact result rounded into the format in use. -/
def round (d : Decimal) : Except Signal Decimal :=
  format.round d

end Spreadsheet.Decimal
