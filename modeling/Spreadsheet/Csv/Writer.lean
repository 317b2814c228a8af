/-!
# Writing comma-separated text

Fields are separated by commas and rows end with a carriage return and a line feed. A field that
holds a comma, a quotation mark or a line end stands between quotation marks, and quotation marks
in it are doubled. A row of one empty field is written as a pair of quotation marks, so that it is
not a blank line.

## Main definitions

* `Csv.writeRow`, `Csv.write` — rows as text.
-/

namespace Spreadsheet.Csv

/-- Whether a character can stand in a field only between quotation marks. -/
def isSpecial (c : Char) : Bool :=
  c == ',' || c == '"' || c == '\r' || c == '\n'

/-- A field between quotation marks. -/
def enclose (field : List Char) : List Char :=
  '"' :: field.flatMap (fun c => if c = '"' then ['"', '"'] else [c]) ++ ['"']

/-- A field as it is written in a row of several. -/
def writeField (field : List Char) : List Char :=
  if field.any isSpecial then enclose field else field

/-- The fields of a row with commas between them. -/
def writeFields : List (List Char) → List Char
  | [] => []
  | [field] => writeField field
  | field :: fields => writeField field ++ ',' :: writeFields fields

/-- A row with its end. -/
def writeRow (fields : List (List Char)) : List Char :=
  (if fields = [[]] then enclose [] else writeFields fields) ++ ['\r', '\n']

/-- Rows as text. -/
def write (rows : List (List String)) : String :=
  String.ofList (rows.flatMap fun fields => writeRow (fields.map String.toList))

end Spreadsheet.Csv
