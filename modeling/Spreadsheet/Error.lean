import Spreadsheet.Decimal.Rounding
import Spreadsheet.Number.Basic
import Spreadsheet.Text.Integer
import Spreadsheet.Text.Quoted

/-!
# Errors

Every way in which a formula, a cell, a sheet or a file can fail. Errors are grouped into
categories, which form a tree: the categories below `formula` are the errors of formulas, which a
grid shows as a marker instead of a value.

## Main definitions

* `Error` — the causes; `Error.message` words them.
* `Category` — the kinds of errors; `Category.parent?` and `Category.ancestors` order them.
* `Error.isFormulaError` — whether an error belongs to the formula and not to its surroundings.
-/

namespace Spreadsheet

/-- Why something failed. -/
inductive Error
  | commaInFormula
  | commaInText (text : String)
  | strayCharacters (stray : String)
  | functionWithoutParentheses (function : String) (position : Int)
  | unclosedParenthesis (position : Int)
  | unexpectedParenthesis (position : Int)
  | missingOperand (function : String)
  | missingOperands (operator : String)
  /-- A token has no place in postorder. -/
  | unexpectedToken (text : String) (position : Int)
  | leftoverValues (count : Nat)
  | divideByZero (operator : String)
  | commaInCell (name : String)
  | functionOutOfRange (function : String) (operand : Number)
  | operatorOutOfRange (operator : String) (left right : Number)
  /-- A value is neither a number nor a text; `written` shows it. -/
  | unknownKind (written : String)
  | textNotNumber (text : String)
  /-- A value that is neither number nor text is no number; `written` shows it. -/
  | valueNotNumber (written : String)
  | invalidReference (name : String)
  /-- A number in a text has more digits than are read. -/
  | tooManyDigits (count : Nat)
  | columnOutOfRange (column name : String)
  | outsideGrid (name : String) (rows columns : Int)
  /-- A cell was reached again while it was being resolved. -/
  | cycle (path : List String)
  /-- Too many cells refer to one another. -/
  | chainTooLong (path : List String) (limit : Int)
  | malformedXml
  | unexpectedRoot (name : String)
  | missingElement (name : String)
  | invalidCount (element text : String)
  | noActiveWorksheet
  | unknownSymbol (symbol : String)
  | arithmetic (signal : Decimal.Signal)
  | noValue (name : String)
  | unnamedColumn (column : Int)
  | positionBelowOne
  | rowOutOfRange (row : Int)
  | invalidCoordinate (text : String)
  | emptyTitle
  | invalidTitle (character : Char)
  | unknownWorksheet (title : String)
  | forbiddenCharacters (text : String)
  | fieldTooLong (limit : Nat)
  | strayLineEnd
  | missingFile (name : String)
  | undecodableFile (name : String)
  | notAnArchive (name : String)
  | misplacedDirectory
  | truncatedDirectory
  | damagedDirectory
  | missingPart
  | unreadableWorksheet
  | unsupportedName (name : String)
  | notAFile (name : String)
  | nullInName
  | nameTooLong
  | yearOutOfRange (year : Nat)
  | monthOutOfRange
  | dayOutOfRange
  | clockOutOfRange (part : String) (last : Nat)
  | textNotFloating (text : String)
deriving DecidableEq, Repr, Inhabited

/-! ## Wording -/

namespace Error

/-- The wording of an error. -/
def message : Error → String
  | commaInFormula => "Comma is not allowed"
  | commaInText text => "Comma not allowed in '" ++ text ++ "'"
  | strayCharacters stray => "Invalid characters in formula: " ++ Text.quote stray
  | functionWithoutParentheses function position =>
    "Function " ++ function ++ " requires parentheses at position " ++ Text.ofInt position
  | unclosedParenthesis position => "Unclosed parenthesis at position " ++ Text.ofInt position
  | unexpectedParenthesis position => "Unexpected ')' at position " ++ Text.ofInt position
  | missingOperand function => "Missing operand for " ++ function
  | missingOperands operator => "Missing operands for '" ++ operator ++ "'"
  | unexpectedToken text position =>
    "Unexpected token " ++ Text.quote text ++ " at position " ++ Text.ofInt position
  | leftoverValues count =>
    "Invalid expression: " ++ Text.ofInt count ++ " values left on the stack"
  | divideByZero operator => "Division by zero in '" ++ operator ++ "'"
  | commaInCell name => "Cell " ++ name ++ " contains a comma"
  | functionOutOfRange function operand =>
    "Cannot compute " ++ function ++ "(" ++ operand.toScientific ++ ")"
  | operatorOutOfRange operator left right =>
    "Cannot compute " ++ left.toScientific ++ " " ++ operator ++ " " ++ right.toScientific
  | unknownKind written => "Unknown cell value type: " ++ written
  | textNotNumber text => "Cannot convert text '" ++ text ++ "' to number"
  | valueNotNumber written => "Cannot convert " ++ written ++ " to number"
  | invalidReference name => "Invalid cell reference: " ++ name
  | tooManyDigits count =>
    "Exceeds the limit (" ++ Text.ofInt Text.digitLimit ++
      " digits) for integer string conversion: value has " ++ Text.ofInt count ++
      " digits; use sys.set_int_max_str_digits() to increase the limit"
  | columnOutOfRange column name => "Column " ++ column ++ " of " ++ name ++ " is out of range"
  | outsideGrid name rows columns =>
    "Cell " ++ name ++ " is outside the grid (" ++ Text.ofInt rows ++ " rows, " ++
      Text.ofInt columns ++ " columns)"
  | cycle path => "Detected cycle: " ++ String.intercalate " -> " path
  | chainTooLong path limit =>
    "Reference chain longer than " ++ Text.ofInt limit ++ " cells (starting at " ++
      path.headD "" ++ ")"
  | malformedXml => "Malformed XML"
  | unexpectedRoot name => "Unexpected root element <" ++ name ++ ">"
  | missingElement name => "Missing <" ++ name ++ "> element"
  | invalidCount element text => "Invalid <" ++ element ++ "> value: " ++ Text.quote text
  | noActiveWorksheet => "Workbook has no active worksheet"
  | unknownSymbol symbol => "Unknown symbol " ++ symbol
  | arithmetic .overflow => "Overflow"
  | arithmetic .invalidOperation => "Invalid operation"
  | noValue name => name
  | unnamedColumn column => "Invalid column index " ++ Text.ofInt column
  | positionBelowOne => "Row or column values must be at least 1"
  | rowOutOfRange row =>
    "Row numbers must be between 1 and 1048576. Row number supplied was " ++ Text.ofInt row
  | invalidCoordinate text => text ++ " is not a valid coordinate or range"
  | emptyTitle => "Title must have at least one character"
  | invalidTitle character =>
    "Invalid character " ++ character.toString ++ " found in sheet title"
  | unknownWorksheet title => "Worksheet " ++ title ++ " does not exist."
  | forbiddenCharacters text => text ++ " cannot be used in worksheets."
  | fieldTooLong limit => "field larger than field limit (" ++ Text.ofInt limit ++ ")"
  | strayLineEnd =>
    "new-line character seen in unquoted field - " ++
      "do you need to open the file in universal-newline mode?"
  | missingFile name => "No such file: " ++ name
  | undecodableFile name => "Not a text file: " ++ name
  | notAnArchive _ => "File is not a zip file"
  | misplacedDirectory => "Bad offset for central directory"
  | truncatedDirectory => "Truncated central directory"
  | damagedDirectory => "Bad magic number for central directory"
  | missingPart => "A part of the workbook is missing"
  | unreadableWorksheet => "not well-formed (invalid token)"
  | unsupportedName _ =>
    "openpyxl does not support  file format, please check you can open it with Excel first. " ++
      "Supported formats are: .xlsx,.xlsm,.xltx,.xltm"
  | notAFile name => "Not a file: " ++ name
  | nullInName => "embedded null byte"
  | nameTooLong => "File name too long"
  | yearOutOfRange year => "year " ++ Text.ofInt year ++ " is out of range"
  | monthOutOfRange => "month must be in 1..12"
  | dayOutOfRange => "day is out of range for month"
  | clockOutOfRange part last => part ++ " must be in 0.." ++ Text.ofInt last
  | textNotFloating text => "could not convert string to float: " ++ Text.quote text

end Error

/-! ## Categories -/

/-- The kinds of errors, abstract ones included. -/
inductive Category
  | any
  | formula
  | tokenizer | commaNotAllowed | invalidCharacters | functionRequiresParens
  | parse | mismatchedParentheses
  | evaluation | missingOperand | missingOperands | invalidExpression | divideByZero
  | commaInCell | numberOutOfRange
  | coercion | notANumber
  | cellReference | invalidCellReference | cellOutOfBounds
  | circular | cycleDetected | chainTooLong
  | storage
  | unknownKey | overflow | invalidOperation | noSuchValue | invalidArgument
  | illegalCharacter | delimitedText | missingFile | undecodableText | badArchive
  | badMarkup | unsupportedFile | isFolder | system
deriving DecidableEq, Repr, Inhabited

namespace Category

/-- The next more general category. -/
def parent? : Category → Option Category
  | any => none
  | formula | storage => some any
  | tokenizer | parse | evaluation | coercion | cellReference | circular => some formula
  | commaNotAllowed | invalidCharacters | functionRequiresParens => some tokenizer
  | mismatchedParentheses => some parse
  | missingOperand | missingOperands | invalidExpression | divideByZero | commaInCell
  | numberOutOfRange => some evaluation
  | notANumber => some coercion
  | invalidCellReference | cellOutOfBounds => some cellReference
  | cycleDetected | chainTooLong => some circular
  | unknownKey | overflow | invalidOperation | noSuchValue | invalidArgument | illegalCharacter
  | delimitedText | missingFile | undecodableText | badArchive | badMarkup | unsupportedFile
  | isFolder | system => some any

/-- The `n` next more general categories, the nearest first. -/
def climb : Nat → Category → List Category
  | 0, _ => []
  | n + 1, c =>
    match c.parent? with
    | none => []
    | some p => p :: climb n p

/-- All more general categories, the nearest first. The most general one is at most three steps
away. -/
def ancestors (c : Category) : List Category :=
  climb 3 c

end Category

namespace Error

/-- The category of an error. -/
def category : Error → Category
  | commaInFormula | commaInText _ => .commaNotAllowed
  | strayCharacters _ => .invalidCharacters
  | functionWithoutParentheses _ _ => .functionRequiresParens
  | unclosedParenthesis _ | unexpectedParenthesis _ => .mismatchedParentheses
  | missingOperand _ => .missingOperand
  | missingOperands _ => .missingOperands
  | unexpectedToken _ _ | leftoverValues _ => .invalidExpression
  | divideByZero _ => .divideByZero
  | commaInCell _ => .commaInCell
  | functionOutOfRange _ _ | operatorOutOfRange _ _ _ => .numberOutOfRange
  | unknownKind _ => .coercion
  | textNotNumber _ | valueNotNumber _ => .notANumber
  | invalidReference _ => .invalidCellReference
  | columnOutOfRange _ _ | outsideGrid _ _ _ => .cellOutOfBounds
  | cycle _ => .cycleDetected
  | chainTooLong _ _ => .chainTooLong
  | malformedXml | unexpectedRoot _ | missingElement _ | invalidCount _ _
  | noActiveWorksheet => .storage
  | unknownSymbol _ | unknownWorksheet _ | missingPart => .unknownKey
  | arithmetic .overflow => .overflow
  | arithmetic .invalidOperation => .invalidOperation
  | noValue _ => .noSuchValue
  | tooManyDigits _ | unnamedColumn _ | positionBelowOne | rowOutOfRange _ | emptyTitle
  | invalidTitle _ | invalidCoordinate _ | nullInName | yearOutOfRange _ | monthOutOfRange
  | dayOutOfRange | clockOutOfRange _ _ | textNotFloating _ => .invalidArgument
  | forbiddenCharacters _ => .illegalCharacter
  | fieldTooLong _ | strayLineEnd => .delimitedText
  | missingFile _ => .missingFile
  | undecodableFile _ => .undecodableText
  | notAnArchive _ | misplacedDirectory | truncatedDirectory | damagedDirectory => .badArchive
  | unreadableWorksheet => .badMarkup
  | unsupportedName _ => .unsupportedFile
  | notAFile _ => .isFolder
  | nameTooLong => .system

/-- Whether an error belongs to a formula, and so is shown in the place of its value. -/
def isFormulaError (e : Error) : Bool :=
  e.category.ancestors.contains .formula

end Error

end Spreadsheet
