import Spreadsheet.Decimal.Rounding

/-!
# Decimal arithmetic

Sum, difference, product, quotient and remainder. Operands are taken exactly, whatever their
length, and the exact result is rounded once. The exponent of an exact result is the ideal one of
each operation: the lesser of the operands' exponents for a sum or a remainder, their sum for a
product, their difference for a quotient.

## Main definitions

* `Decimal.add`, `Decimal.sub`, `Decimal.mul`, `Decimal.div`, `Decimal.rem`
* `Decimal.truncate` — the integer part.
-/

namespace Spreadsheet.Decimal

/-! ## Sum and difference -/

/-- The exact sum, at the lesser exponent. A sum that is zero is negative only if both operands
are. -/
def exactSum (a b : Decimal) : Decimal :=
  let e := min a.exponent b.exponent
  let s := a.signedAt e + b.signedAt e
  ⟨if s = 0 then a.negative && b.negative else s < 0, s.natAbs, e⟩

/-- The exponent of a digit that is too far below `big` for its value to affect the rounded sum:
two places below the last of `precision` digits. -/
def negligibleExponent (f : Format) (big : Decimal) : Int :=
  let digits : Int := digitCount big.coefficient
  big.exponent - 1 + (if f.precision < digits then 0 else digits - f.precision - 1)

/-- Stands in for `small` in a sum with `big`, which has the greater exponent. If all digits of
`small` are negligible, one digit in their place rounds the same way, and no long coefficient is
formed. -/
def absorb (f : Format) (big small : Decimal) : Decimal :=
  let e := negligibleExponent f big
  if !big.isZero && small.adjusted < e then
    ⟨small.negative, if small.isZero then 0 else 1, e⟩
  else
    small

/-- The rounded sum. -/
def add (a b : Decimal) : Except Signal Decimal :=
  round <|
    if b.exponent ≤ a.exponent then exactSum a (absorb format a b)
    else exactSum (absorb format b a) b

/-- The rounded difference. -/
def sub (a b : Decimal) : Except Signal Decimal :=
  add a b.neg

/-! ## Product and quotient -/

/-- The rounded product. -/
def mul (a b : Decimal) : Except Signal Decimal :=
  round ⟨a.negative != b.negative, a.coefficient * b.coefficient, a.exponent + b.exponent⟩

/-- Takes up to `k` trailing zeros off the coefficient. -/
def dropZeros : Nat → Decimal → Decimal
  | 0, d => d
  | k + 1, d =>
    if d.coefficient % 10 = 0 then
      dropZeros k { d with coefficient := d.coefficient / 10, exponent := d.exponent + 1 }
    else
      d

/-- The quotient of nonzero numbers to more digits than the precision. An exact quotient loses
trailing zeros until it reaches the ideal exponent; in an inexact one a last digit `1` stands for
the digits that follow, so that it rounds as the exact quotient does. -/
def longQuotient (f : Format) (a b : Decimal) : Decimal :=
  let shift : Int := digitCount b.coefficient - digitCount a.coefficient + f.precision + 1
  let numerator := a.coefficient * Nat.pow 10 shift.toNat
  let denominator := b.coefficient * Nat.pow 10 (-shift).toNat
  let e := a.exponent - b.exponent - shift
  let negative := a.negative != b.negative
  let q := numerator / denominator
  if numerator % denominator = 0 then dropZeros shift.toNat ⟨negative, q, e⟩
  else ⟨negative, 10 * q + 1, e - 1⟩

/-- The rounded quotient by a nonzero number. -/
def div (a b : Decimal) : Except Signal Decimal :=
  round <|
    if a.isZero then ⟨a.negative != b.negative, 0, a.exponent - b.exponent⟩
    else longQuotient format a b

/-! ## Remainder and integer part -/

/-- The remainder of the division by a nonzero number, with the sign of the dividend. The integer
quotient must not be longer than the precision. -/
def rem (a b : Decimal) : Except Signal Decimal :=
  let e := min a.exponent b.exponent
  let digits := a.adjusted - b.adjusted
  if a.isZero then round ⟨a.negative, 0, e⟩
  else if digits < 0 then round ⟨a.negative, a.coefficientAt e, e⟩
  else if format.precision < digits then .error .invalidOperation
  else
    let x := a.coefficientAt e
    let y := b.coefficientAt e
    if format.precision < digitCount (x / y) then .error .invalidOperation
    else round ⟨a.negative, x % y, e⟩

/-- `n / 10 ^ k`, rounded down. -/
def dropDigits (n k : Nat) : Nat :=
  if digitCount n ≤ k then 0 else n / Nat.pow 10 k

/-- The integer part, with exponent zero; a number without a fraction is left as it is. -/
def truncate (d : Decimal) : Decimal :=
  if 0 ≤ d.exponent then d
  else ⟨d.negative, dropDigits d.coefficient (-d.exponent).toNat, 0⟩

end Spreadsheet.Decimal
