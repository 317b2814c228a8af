import Spreadsheet.Decimal.Arithmetic
import Spreadsheet.Decimal.Notation
import Spreadsheet.Decimal.Numeral

/-!
# Binary floating-point numbers

Numbers of 64 bits, as worksheets store them: a mantissa of 53 bits and a power of two. All
conversions compare exact integers.

## Main definitions

* `Binary64` — finite numbers, infinities and the undefined number.
* `Binary64.ofDecimal` — the nearest number.
* `Binary64.shortest` — the fewest digits that determine a number.
* `Binary64.toDecimal`, `Binary64.written` — its decimal value and text by these digits.
* `Binary64.sixteenDigits` — its value to sixteen digits.
* `Binary64.ofText?` — the number that a text is written for.
-/

namespace Spreadsheet

/-- A floating-point number of 64 bits; the finite ones stand for `± mantissa * 2 ^ exponent`. -/
inductive Binary64
  | finite (negative : Bool) (mantissa : Nat) (exponent : Int)
  | infinite (negative : Bool)
  | undefined
deriving DecidableEq, Repr, Inhabited

namespace Binary64

/-! ## Rounding to binary -/

/-- `n / d` rounded to the nearest natural number, a tie to the even one. -/
def roundRatio (n d : Nat) : Nat :=
  let q := n / d
  let twice := 2 * (n % d)
  if d < twice ∨ (twice = d ∧ q % 2 = 1) then q + 1 else q

/-- The exponent of the last bit of subnormal numbers. -/
def leastExponent : Int :=
  -1074

/-- The exponent of the last bit of the largest numbers. -/
def greatestExponent : Int :=
  971

/-- The mantissa and exponent nearest to `n / d`. The first guess at the exponent leaves 53 or 54
bits; in the second case one more bit goes. -/
def nearest (n d : Nat) : Nat × Int :=
  let bits : Int := Nat.log2 n - Nat.log2 d
  let scaled (e : Int) : Nat × Nat := (n * Nat.pow 2 (-e).toNat, d * Nat.pow 2 e.toNat)
  let guess := bits - 53
  let (n', d') := scaled guess
  let e := max leastExponent (if n' / d' < Nat.pow 2 53 then guess else guess + 1)
  let (n', d') := scaled e
  let m := roundRatio n' d'
  if m = Nat.pow 2 53 then (Nat.pow 2 52, e + 1) else (m, e)

/-- The number nearest to a decimal; those too large become infinite. Numbers with more than 400
places before the point or zeros after it are out of range without being scaled. -/
def ofDecimal (d : Decimal) : Binary64 :=
  if d.isZero ∨ d.adjusted < -400 then .finite d.negative 0 leastExponent
  else if 400 < d.adjusted then .infinite d.negative
  else
    let (m, e) := nearest (d.coefficient * Nat.pow 10 d.exponent.toNat)
      (Nat.pow 10 (-d.exponent).toNat)
    if greatestExponent < e then .infinite d.negative else .finite d.negative m e

/-! ## Decimal digits -/

/-- The value `m * 2 ^ e` as a fraction. -/
def fraction (m : Nat) (e : Int) : Nat × Nat :=
  (m * Nat.pow 2 e.toNat, Nat.pow 2 (-e).toNat)

/-- The decimal exponent of the leading digit of `n / d`, for `n` not zero. -/
def leadingExponent (n d : Nat) : Int :=
  let guess : Int := Decimal.digitCount n - Decimal.digitCount d
  if d * Nat.pow 10 guess.toNat ≤ n * Nat.pow 10 (-guess).toNat then guess else guess - 1

/-- `n / d` in units of `10 ^ e`. -/
def inUnits (n d : Nat) (e : Int) : Nat × Nat :=
  (n * Nat.pow 10 (-e).toNat, d * Nat.pow 10 e.toNat)

/-- Whether `k` units of `10 ^ unit` read back as `m * 2 ^ e`: their distance is at most half the
gap to the neighbouring number, or less than that if `m` is odd. Below a power of two the gap is
half as wide. -/
def readsBack (m : Nat) (e unit : Int) (k : Nat) : Bool :=
  let (n, d) := fraction m e
  let (gap, _) := fraction 1 e
  let (x, y) := inUnits n d unit
  let (g, _) := inUnits gap d unit
  -- all of `4 * x / y`, `4 * k` and the gap `g / y`, multiplied by `y`
  let distance := if k * y ≤ x then 4 * (x - k * y) else 4 * (k * y - x)
  let width := if k * y < x ∧ m = Nat.pow 2 52 ∧ leastExponent < e then g else 2 * g
  distance < width || (distance == width && m % 2 == 0)

/-- The best number of units of `10 ^ unit` that reads back as `m * 2 ^ e`, if one does: of the
two next to the value, the nearer. -/
def candidate? (m : Nat) (e unit : Int) : Option Nat :=
  let (n, d) := fraction m e
  let (x, y) := inUnits n d unit
  let k := x / y
  match readsBack m e unit k, readsBack m e unit (k + 1) with
  | true, true => some (roundRatio x y)
  | true, false => some k
  | false, true => some (k + 1)
  | false, false => none

/-- Looks for the first count of digits, from the one whose unit is `10 ^ unit` on, at which a
candidate reads back. Seventeen digits always do. -/
def search (m : Nat) (e : Int) : Nat → Int → Nat × Int
  | 0, unit => (0, unit)
  | more + 1, unit =>
    match candidate? m e unit with
    | some k => (k, unit)
    | none => search m e more (unit - 1)

/-- The fewest digits that read back as `m * 2 ^ e`, not zero: coefficient and exponent, without
trailing zeros. -/
def shortest (m : Nat) (e : Int) : Nat × Int :=
  let (n, d) := fraction m e
  let (k, unit) := search m e 17 (leadingExponent n d)
  let r := Decimal.dropZeros 17 ⟨false, k, unit⟩
  (r.coefficient, r.exponent)

/-! ## Text -/

/-- Which numbers are written with an exponent: those whose leading digit is below the first
position or not below the second. -/
structure Layout where
  least : Int
  beyond : Int

/-- Numbers from `0.0001` up to sixteen places before the point are positional. -/
def layout : Layout :=
  ⟨-4, 16⟩

/-- Whether a number with this leading exponent is positional. -/
def Layout.isPositional (l : Layout) (adjusted : Int) : Bool :=
  l.least ≤ adjusted && adjusted < l.beyond

/-- The decimal value of a finite number by its shortest digits. A positional number shows at
least one place after the point. -/
def toDecimal (negative : Bool) (m : Nat) (e : Int) : Decimal :=
  if m = 0 then ⟨negative, 0, -1⟩
  else
    let (k, x) := shortest m e
    let d : Decimal := ⟨negative, k, x⟩
    if layout.isPositional d.adjusted ∧ 0 ≤ x then ⟨negative, d.coefficientAt (-1), -1⟩ else d

/-- An exponent with its sign and at least two digits. -/
def exponentText (e : Int) : String :=
  (if e < 0 then "-" else "+") ++ Decimal.paddedText 2 e.natAbs

/-- A number with its leading digit before the point and an exponent. -/
def scientificText (d : Decimal) : String :=
  let places := Decimal.digitCount d.coefficient - 1
  d.signText ++
    (if places = 0 then Decimal.digitText d.coefficient
      else Decimal.pointText d.coefficient places) ++
    "e" ++ exponentText d.adjusted

/-- The text of a number by its shortest digits. -/
def written : Binary64 → String
  | finite negative m e =>
    let d := toDecimal negative m e
    if m = 0 ∨ layout.isPositional d.adjusted then d.toPlain else scientificText d
  | infinite negative => if negative then "-inf" else "inf"
  | undefined => "nan"

/-- The text of a number without an exponent. -/
def plainText : Binary64 → String
  | finite negative m e => (toDecimal negative m e).toPlain
  | infinite negative => if negative then "-Infinity" else "Infinity"
  | undefined => "NaN"

/-! ## Rounded digits -/

/-- The digits of `m * 2 ^ e`, not zero, rounded to sixteen, without trailing zeros. -/
def sixteenDigits (negative : Bool) (m : Nat) (e : Int) : Decimal :=
  let (n, d) := fraction m e
  let unit := leadingExponent n d - 15
  let (x, y) := inUnits n d unit
  Decimal.dropZeros 16 ⟨negative, roundRatio x y, unit⟩

/-! ## Reading -/

/-- The text without underscores, if all of them stand between digits; `afterDigit` tells whether
the text follows a digit. -/
def joinDigits? (afterDigit : Bool) : List Char → Option (List Char)
  | [] => some []
  | '_' :: c :: s =>
    if afterDigit && c.isDigit then (joinDigits? true s).map (c :: ·) else none
  | c :: s => if c = '_' then none else (joinDigits? c.isDigit s).map (c :: ·)

/-- The number that a word stands for. -/
def ofWord? (negative : Bool) (word : List Char) : Option Binary64 :=
  if word = "inf".toList || word = "infinity".toList then some (.infinite negative)
  else if word = "nan".toList then some .undefined
  else none

/-- The number that a text is written for. The digits may be those of any script, and underscores
may stand between them. -/
def ofText? (s : String) : Option Binary64 := do
  let s ← joinDigits? false ((Text.trimChars s.toList).map Numeral.plainDigit)
  match Numeral.parse? s with
  | some d => some (ofDecimal d)
  | none =>
    let (negative, word) := Numeral.takeSign s
    ofWord? negative (word.map Char.toLower)

end Binary64

end Spreadsheet
