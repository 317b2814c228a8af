import Spreadsheet.Binary64
import Spreadsheet.Cell.Calendar

/-!
# Values of cells

The value of a cell is a number or a text. Worksheets have more kinds of values: truth values,
integers, floating-point numbers and points in time, and cells without a value. Operators work on
numbers; a text is converted only when an operator takes it as an operand, and the other kinds are
never converted.

## Main definitions

* `Value` — what a cell can hold.
* `Value.toNumber` — the number that an operator sees.
* `Value.text?` — the text that a user would have typed.
* `Value.display` — the value as the grid shows it.
* `Value.written` — the value as messages show it.
-/

namespace Spreadsheet

/-- What a cell can hold. -/
inductive Value
  | number (n : Number)
  | text (s : String)
  | empty
  | truth (b : Bool)
  | integer (n : Int)
  | floating (x : Binary64)
  | date (d : Date)
  | time (t : TimeOfDay)
  | dateTime (d : Date) (t : TimeOfDay)
deriving DecidableEq, Repr, Inhabited

/-- The kinds of values that formulas compute with. -/
inductive Kind
  | number
  | text
deriving DecidableEq, Repr, Inhabited

namespace Value

/-- A decimal as a value. -/
@[match_pattern] abbrev decimal (d : Decimal) : Value :=
  number (.finite d)

/-- The number zero, which is the value of an empty cell. -/
def zero : Value :=
  decimal (.ofNat 0)

/-- A literal is a number, any other text is a text. -/
def ofText (s : String) : Value :=
  match Decimal.ofLiteral? s with
  | some d => decimal d
  | none => text s

/-! ## Texts -/

/-- Numbers separated by commas, after a name and between parentheses. -/
def call (name : String) (arguments : List Nat) : String :=
  name ++ "(" ++ String.intercalate ", " (arguments.map Decimal.digitText) ++ ")"

/-- The form in which a message shows a value. -/
def written : Value → String
  | number n => "Decimal('" ++ n.toScientific ++ "')"
  | text s => Text.quote s
  | empty => "None"
  | truth b => if b then "True" else "False"
  | integer n => Text.ofInt n
  | floating x => x.written
  | date d => call "datetime.date" [d.year, d.month, d.day]
  | time t => call "datetime.time" t.parts
  | dateTime d t => call "datetime.datetime" ([d.year, d.month, d.day] ++ t.parts)

/-- The text that a user would have typed for a value. -/
def text? : Value → Option String
  | number n => some n.toPlain
  | text s => some s
  | empty => none
  | truth b => some (if b then "TRUE" else "FALSE")
  | integer n => some (Text.ofInt n)
  | floating x => some x.plainText
  | date d => some d.text
  | time t => some t.text
  | dateTime d t => some (d.text ++ "T" ++ t.text)

/-- The value as the grid shows it. -/
def display : Value → String
  | number n => n.toDisplay
  | v => v.text?.getD ""

/-! ## Operands -/

/-- The kind of a value that formulas compute with. -/
def kind : Value → Except Error Kind
  | number _ => .ok .number
  | text _ => .ok .text
  | v => .error (.unknownKind v.written)

/-- The number that a text stands for as an operand. Blank text is zero. A comma is never a
decimal separator, and has an error of its own. -/
def textToNumber (s : String) : Except Error Decimal :=
  if Text.isBlankText s then .ok (.ofNat 0)
  else if s.toList.contains ',' then .error (.commaInText s)
  else
    match Decimal.ofLiteral? s with
    | some d => .ok d
    | none => .error (.textNotNumber s)

/-- The number that a value stands for as an operand. -/
def toNumber : Value → Except Error Number
  | number n => .ok n
  | text s => (textToNumber s).map .finite
  | v => .error (.valueNotNumber v.written)

end Value

end Spreadsheet
