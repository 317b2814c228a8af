import Spreadsheet.Grid
import Spreadsheet.OrderedMap

/-!
# Worksheets

A worksheet has cells at positions, each with a value. Its used range begins with the first row
and column and reaches as far as there are cells. Cells come into being not only when they are
given a value but also when they are looked at, so the range is a matter of all cells that exist.

## Main definitions

* `Position` — rows and columns of cells.
* `Worksheet` — the cells of a worksheet.
* `Worksheet.rows`, `Worksheet.columns` — the used range.
* `Worksheet.put` — gives a cell a value.
* `Workbook` — worksheets under their titles.
-/

namespace Spreadsheet

/-! ## Positions -/

/-- The last row of worksheets. -/
def Position.lastRow : Nat :=
  1048576

/-- Row and column of a cell of a worksheet. -/
structure Position where
  row : Nat
  column : Nat
  one_le_row : 1 ≤ row
  row_le : row ≤ Position.lastRow
  one_le_column : 1 ≤ column
  column_le : column ≤ Column.last
deriving DecidableEq, Repr

/-- The position of a row and column, if there is one in a worksheet. -/
def Position.of (row column : Nat) : Except Error Position :=
  if h : 1 ≤ row ∧ 1 ≤ column then
    if hr : row ≤ lastRow then
      if hc : column ≤ Column.last then .ok ⟨row, column, h.1, hr, h.2, hc⟩
      else .error (.unnamedColumn column)
    else .error (.rowOutOfRange row)
  else .error .positionBelowOne

/-- What follows a dollar sign, which may be missing. -/
def Position.skipDollar : List Char → List Char
  | '$' :: s => s
  | s => s

/-- The position that a coordinate gives: up to three letters and the digits of the row, of any
script, each perhaps after a dollar sign. A final line end is allowed. -/
def Position.ofCoordinate (coordinate : String) : Except Error Position :=
  let s := skipDollar (coordinate.toList.map Numeral.plainDigit)
  let letters := s.takeWhile CellName.isAnyLetter
  let rest := skipDollar (s.dropWhile CellName.isAnyLetter)
  let digits := rest.takeWhile Char.isDigit
  if letters.isEmpty || digits.isEmpty || 3 < letters.length ||
      !CellName.isAtEnd (rest.dropWhile Char.isDigit) then
    .error (.invalidCoordinate coordinate)
  else if Text.digitLimit < digits.length then .error (.tooManyDigits digits.length)
  else if Numeral.value digits = 0 then .error (.rowOutOfRange 0)
  else of (Numeral.value digits) (Column.ofLetters (letters.map Char.toUpper))

/-- The name of the cell at a position. -/
def Position.name (p : Position) : String :=
  String.ofList (Column.letters p.column ++ Nat.toDigits 10 p.row)

/-- Whether a position comes before another one, or is the same, when rows are read one after the
other. -/
def Position.isUpTo (p q : Position) : Bool :=
  p.row < q.row || (p.row = q.row && p.column ≤ q.column)

/-- The cells of a worksheet. -/
structure Worksheet where
  title : String
  /-- The cells that were given a value, in the order in which that first happened. -/
  values : OrderedMap Position Value
  /-- The cells that came into being without a value, perhaps repeatedly. -/
  blanks : List Position
deriving DecidableEq, Inhabited

namespace Worksheet

/-! ## Titles -/

/-- The title of a worksheet that was given none. -/
def initialTitle : String :=
  "Sheet"

/-- Characters that may not stand in a title. -/
def isForbiddenInTitle (c : Char) : Bool :=
  ['\\', '*', '?', ':', '/', '[', ']'].contains c

/-- The title that a new worksheet gets when it is to be called `title`. The title that it has
already counts as taken in every other spelling of the case of its letters, and a number is
added. -/
def newTitle (title : String) : Except Error String :=
  match title.toList.find? isForbiddenInTitle with
  | some c => .error (.invalidTitle c)
  | none =>
    if title = "" then .error .emptyTitle
    else if title ≠ initialTitle ∧ title.toList.map lowerChar = initialTitle.toList.map lowerChar
    then .ok (title ++ "1")
    else .ok title

/-! ## Cells -/

/-- A worksheet without cells. -/
def empty (title : String) : Worksheet :=
  ⟨title, .empty, []⟩

/-- The positions of the cells that exist. -/
def positions (w : Worksheet) : List Position :=
  w.values.keys ++ w.blanks

/-- The number of rows of the used range. -/
def rows (w : Worksheet) : Nat :=
  w.positions.foldl (fun n p => max n p.row) 1

/-- The number of columns of the used range. -/
def columns (w : Worksheet) : Nat :=
  w.positions.foldl (fun n p => max n p.column) 1

/-- The value of the cell at a position. -/
def valueAt (w : Worksheet) (p : Position) : Value :=
  (w.values.get? p).getD .empty

/-- The greatest number of characters of a text. -/
def textLimit : Nat :=
  32767

/-- Control characters that a worksheet cannot hold. -/
def isForbidden (c : Char) : Bool :=
  let n := c.toNat
  n ≤ 0x8 || n == 0xb || n == 0xc || (0xe ≤ n && n ≤ 0x1f)

/-- The value as a cell takes it: long texts are cut. -/
def accept (v : Value) : Except Error Value :=
  match v with
  | .text s =>
    let cut := s.toList.take textLimit
    if cut.any isForbidden then .error (.forbiddenCharacters (String.ofList cut))
    else .ok (.text (String.ofList cut))
  | v => .ok v

/-- Gives the cell at a position a value. -/
def put (w : Worksheet) (p : Position) (v : Value) : Except Error Worksheet :=
  (accept v).map fun v => { w with values := w.values.insert p v }

/-- The worksheet whose cells have the given values under their names. -/
def ofList (title : String) (l : List (String × Value)) : Except Error Worksheet :=
  l.foldlM (fun w (name, v) => do
    let (row, column) ← CellName.split name
    w.put (← Position.of row column) v) (empty title)

/-- The worksheet whose cells have the given values under their coordinates. -/
def ofCoordinates (title : String) (l : List (String × Value)) : Except Error Worksheet :=
  l.foldlM (fun w (coordinate, v) => do w.put (← Position.ofCoordinate coordinate) v) (empty title)

/-- The values in the order of reading. -/
def inOrder (w : Worksheet) : List (Position × Value) :=
  w.values.entries.mergeSort fun a b => a.1.isUpTo b.1

end Worksheet

/-! ## Workbooks -/

/-- Worksheets in order; the first of them is the active one. -/
structure Workbook where
  worksheets : List Worksheet
deriving DecidableEq, Inhabited

namespace Workbook

/-- The worksheet of a title, or the active one if no title or the empty one is given. -/
def select (b : Workbook) (title : Option String) : Except Error Worksheet :=
  match title.filter (· ≠ "") with
  | some title =>
    match b.worksheets.find? (·.title == title) with
    | some w => .ok w
    | none => .error (.unknownWorksheet title)
  | none =>
    match b.worksheets with
    | w :: _ => .ok w
    | [] => .error .noActiveWorksheet

end Workbook

end Spreadsheet
