import Spreadsheet.Decimal.Numeral
import Spreadsheet.Error
import Spreadsheet.Text.Uppercase

/-!
# Names of cells

A cell name consists of the letters of its column and the digits of its row. The letters count in
base 26 with the digits `A` to `Z` for one to twenty-six, so that every positive number has
exactly one spelling. Columns have up to three letters. Names are compared in upper case.

## Main definitions

* `Column.letters`, `Column.ofLetters` — columns as letters and as numbers.
* `CellName.split` — row and column of a name.
* `CellName.ofPosition` — the name of a row and column.
* `CellName.aliasTarget?` — the cell that a text consists of a reference to.
-/

namespace Spreadsheet

/-! ## Columns -/

namespace Column

/-- The number of the last column, `ZZZ`. -/
def last : Nat :=
  18278

/-- Whether a character is an upper-case letter of ASCII. -/
def isLetter (c : Char) : Bool :=
  'A' ≤ c && c ≤ 'Z'

/-- The number that letters stand for. -/
def ofLetters (s : List Char) : Nat :=
  s.foldl (fun n c => 26 * n + (c.toNat - 'A'.toNat + 1)) 0

/-- The letters of a number with at most `width` of them, followed by `rest`. -/
def lettersOnto : Nat → Nat → List Char → List Char
  | 0, _, rest => rest
  | width + 1, n, rest =>
    if n = 0 then rest
    else lettersOnto width ((n - 1) / 26) (Char.ofNat ('A'.toNat + (n - 1) % 26) :: rest)

/-- The letters of a column. -/
def letters (n : Nat) : List Char :=
  lettersOnto 3 n []

/-- The text for a column number, if there is such a column. -/
def name (n : Int) : Except Error String :=
  if 1 ≤ n ∧ n ≤ last then .ok (String.ofList (letters n.toNat))
  else .error (.unnamedColumn n)

end Column

/-! ## Labels -/

/-- A row or a column given by its number or by its text. -/
inductive Label
  | number (n : Int)
  | text (s : String)

namespace Label

/-- The text of a column; a text stands for itself. -/
def columnName : Label → Except Error String
  | number n => Column.name n
  | text s => .ok s

/-- The text of a row; a text stands for itself. -/
def rowName : Label → String
  | number n => Text.ofInt n
  | text s => s

end Label

/-! ## Cell names -/

namespace CellName

/-- Whether nothing but a final line end is left. -/
def isAtEnd (s : List Char) : Bool :=
  s = [] || s = ['\n']

/-- The letters and the digits of which a text consists; a final line end is allowed. -/
def parts? (isLetter : Char → Bool) (s : List Char) : Option (List Char × List Char) :=
  let letters := s.takeWhile isLetter
  let rest := s.dropWhile isLetter
  let digits := rest.takeWhile Char.isDigit
  if letters.isEmpty || digits.isEmpty || !isAtEnd (rest.dropWhile Char.isDigit) then none
  else some (letters, digits)

/-- Row and column of a cell name in any case. A name with four letters or more is well formed,
but its column is out of range. The digits of the row may be no more than those of an integer that
is read, leading zeros included. -/
def split (name : String) : Except Error (Nat × Nat) :=
  match parts? Column.isLetter (Text.upper name).toList with
  | none => .error (.invalidReference name)
  | some (letters, digits) =>
    if 3 < letters.length then .error (.columnOutOfRange (String.ofList letters) name)
    else if Text.digitLimit < digits.length then .error (.tooManyDigits digits.length)
    else .ok (Numeral.value digits, Column.ofLetters letters)

/-- The name of the cell in a labelled row and column. -/
def ofLabels (row column : Label) : Except Error String :=
  column.columnName.map fun letters => letters ++ row.rowName

/-- The name of the cell in a row and column. -/
def ofPosition (row column : Int) : Except Error String :=
  ofLabels (.number row) (.number column)

/-- Whether a character is a letter of ASCII. -/
def isAnyLetter (c : Char) : Bool :=
  ('A' ≤ c && c ≤ 'Z') || ('a' ≤ c && c ≤ 'z')

/-- The cell that a text refers to, if it consists of an equals sign and one cell name; a final
line end is allowed. -/
def aliasTarget? (text : String) : Option String :=
  match text.toList with
  | '=' :: s =>
    (parts? isAnyLetter s).map fun (letters, digits) =>
      Text.upper (String.ofList (letters ++ digits))
  | _ => none

end CellName

end Spreadsheet
