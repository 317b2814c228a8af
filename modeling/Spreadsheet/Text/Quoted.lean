import Spreadsheet.Text.Printable

/-!
# Quoted texts

The form in which messages quote a text that may hold any characters. The text stands between
single quotes, or between double quotes if it holds a single quote and no double quote. The
backslash, the enclosing quote and the characters that are not printable are escaped.

## Main definitions

* `quote` — the quoted form of a text.
-/

namespace Spreadsheet.Text

/-- The quotation mark that encloses a text. -/
def enclosingQuote (s : List Char) : Char :=
  if s.contains '\'' && !s.contains '"' then '"' else '\''

/-- `n` in base sixteen, with leading zeros up to `width` digits. -/
def hexDigits (width n : Nat) : List Char :=
  let digits := Nat.toDigits 16 n
  List.replicate (width - digits.length) '0' ++ digits

/-- A character as it stands between quotation marks `mark`. -/
def quoteChar (mark c : Char) : List Char :=
  if c = mark ∨ c = '\\' then ['\\', c]
  else if c = '\n' then ['\\', 'n']
  else if c = '\r' then ['\\', 'r']
  else if c = '\t' then ['\\', 't']
  else if isPrintable c then [c]
  else if c.toNat < 0x100 then '\\' :: 'x' :: hexDigits 2 c.toNat
  else if c.toNat < 0x10000 then '\\' :: 'u' :: hexDigits 4 c.toNat
  else '\\' :: 'U' :: hexDigits 8 c.toNat

/-- The quoted form of a text. -/
def quote (s : String) : String :=
  let mark := enclosingQuote s.toList
  String.ofList (mark :: s.toList.flatMap (quoteChar mark) ++ [mark])

end Spreadsheet.Text
