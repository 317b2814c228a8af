import Spreadsheet.Error

/-!
# Reading comma-separated text

The reader takes one character after the other. Quotation marks have a meaning only at the
beginning of a field: there they open a quoted part, in which commas and line ends are ordinary
and a doubled quotation mark stands for one. Behind the quoted part the field goes on unquoted.
A quoted part that is never closed ends with the text. Lines without a field are no records.

Lines end at line feeds. A carriage return ends a record as well, but then nothing other than line
ends may follow on the same line.

## Main definitions

* `Csv.Reader` — what has been read so far; `Csv.Reader.step`, `Csv.Reader.endLine`.
* `Csv.read` — the records of a text.
-/

namespace Spreadsheet.Csv

/-- Where in a record the reader stands. -/
inductive Mode
  /-- Before the first field. -/
  | recordStart
  /-- Before a field. -/
  | fieldStart
  /-- In an unquoted field. -/
  | unquoted
  /-- In a quoted part. -/
  | quoted
  /-- Behind a quotation mark in a quoted part. -/
  | quoteSeen
  /-- Behind the end of a record. -/
  | recordEnd
deriving DecidableEq, Repr, Inhabited

/-- What has been read so far. The current field and the lists of fields and records are kept in
reverse. -/
structure Reader where
  mode : Mode
  field : List Char
  fieldSize : Nat
  fields : List (List Char)
  records : List (List (List Char))
deriving DecidableEq, Repr, Inhabited

/-- The greatest number of characters of a field. -/
def fieldLimit : Nat :=
  131072

namespace Reader

/-- Nothing has been read. -/
def start : Reader :=
  ⟨.recordStart, [], 0, [], []⟩

/-- Adds a character to the current field. -/
def addChar (r : Reader) (mode : Mode) (c : Char) : Except Error Reader :=
  if fieldLimit ≤ r.fieldSize then .error (.fieldTooLong fieldLimit)
  else .ok { r with mode, field := c :: r.field, fieldSize := r.fieldSize + 1 }

/-- Ends the current field. -/
def saveField (r : Reader) (mode : Mode) : Reader :=
  { r with mode, field := [], fieldSize := 0, fields := r.field.reverse :: r.fields }

/-- Ends the current record, unless it has no fields. -/
def saveRecord (r : Reader) : Reader :=
  if r.fields.isEmpty then { r with mode := .recordStart }
  else { r with mode := .recordStart, fields := [], records := r.fields.reverse :: r.records }

/-- Whether a character ends a record. -/
def isLineEnd (c : Char) : Bool :=
  c == '\n' || c == '\r'

/-- Takes a character at the beginning of a field. -/
def beginField (r : Reader) (c : Char) : Except Error Reader :=
  if isLineEnd c then .ok (r.saveField .recordEnd)
  else if c = '"' then .ok { r with mode := .quoted }
  else if c = ',' then .ok (r.saveField .fieldStart)
  else r.addChar .unquoted c

/-- Takes a character. -/
def step (r : Reader) (c : Char) : Except Error Reader :=
  match r.mode with
  | .recordStart => if isLineEnd c then .ok { r with mode := .recordEnd } else r.beginField c
  | .fieldStart => r.beginField c
  | .unquoted =>
    if isLineEnd c then .ok (r.saveField .recordEnd)
    else if c = ',' then .ok (r.saveField .fieldStart)
    else r.addChar .unquoted c
  | .quoted => if c = '"' then .ok { r with mode := .quoteSeen } else r.addChar .quoted c
  | .quoteSeen =>
    if c = '"' then r.addChar .quoted c
    else if c = ',' then .ok (r.saveField .fieldStart)
    else if isLineEnd c then .ok (r.saveField .recordEnd)
    else r.addChar .unquoted c
  | .recordEnd => if isLineEnd c then .ok r else .error .strayLineEnd

/-- Ends a line. -/
def endLine (r : Reader) : Reader :=
  match r.mode with
  | .recordStart | .recordEnd => r.saveRecord
  | .fieldStart | .unquoted | .quoteSeen => (r.saveField .recordEnd).saveRecord
  | .quoted => r

/-- Ends the text, and with it the last line and a quoted part that is still open. -/
def finish (r : Reader) : Reader :=
  let r := r.endLine
  if r.mode = .quoted then (r.saveField .recordEnd).saveRecord else r

end Reader

/-- The records of a text up to the error at which reading stops, if there is one. -/
structure Reading where
  records : List (List String)
  error? : Option Error
deriving DecidableEq, Repr, Inhabited

/-- What a reader has read in the end. -/
def Reader.reading (r : Reader) (error? : Option Error) : Reading :=
  ⟨r.records.reverse.map fun fields => fields.map String.ofList, error?⟩

/-- Reads on. -/
def readFrom (r : Reader) : List Char → Reading
  | [] => r.finish.reading none
  | c :: s =>
    match r.step c with
    | .error e => r.reading (some e)
    | .ok r => readFrom (if c = '\n' then r.endLine else r) s

/-- The records of a text. -/
def read (text : String) : Reading :=
  readFrom .start text.toList

end Spreadsheet.Csv
