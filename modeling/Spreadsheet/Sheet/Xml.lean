import Spreadsheet.Sheet.Basic
import Spreadsheet.Xml.Element
import Spreadsheet.Xml.Layout

/-!
# Sheets as documents

A saved sheet is a document that holds the numbers of rows and columns, and a record for each
stored cell with its name and its text, in the order in which they were stored.

## Main definitions

* `Sheet.toXml` — the document of a sheet.
* `Sheet.ofXml` — the sheet of a document, and how many records had no name.
-/

namespace Spreadsheet.Sheet

/-! ## Writing -/

/-- The record of a cell. -/
def recordXml (name text : String) : List Char :=
  Xml.group 2 "CellRecord" [Xml.leaf "Name" name, Xml.leaf "Value" text]

/-- The document of a sheet. -/
def toXml (s : Sheet) : String :=
  Xml.document <| Xml.group 0 "SavedData" [
    Xml.leaf "Rows" (Text.ofInt s.rows),
    Xml.leaf "Cols" (Text.ofInt s.columns),
    Xml.group 1 "Cells" (s.cells.entries.map fun e => recordXml e.1 e.2)]

/-! ## Reading -/

/-- The integer in the first element of a name. -/
def countOf (root : Xml.Element) (name : String) : Except Error Int :=
  match (root.child? name).map Xml.Element.text with
  | none | some "" => .error (.missingElement name)
  | some text =>
    match Text.toInt? text with
    | some n => .ok n
    | none => .error (.invalidCount name text)

/-- The name and the text of a record. A record without a name has none of them; a record without
a text has the empty one. Names are taken in upper case and without white space at the ends. -/
def recordOf? (record : Xml.Element) : Option (String × String) :=
  match (record.child? "Name").map Xml.Element.text with
  | none | some "" => none
  | some name =>
    some (Text.upper (Text.trim name), ((record.child? "Value").map Xml.Element.text).getD "")

/-- A sheet that was read, and how many of its records had no name. -/
structure Loaded where
  sheet : Sheet
  skipped : Nat
deriving DecidableEq, Inhabited

/-- The sheet of a document. -/
def ofXml (document : String) : Except Error Loaded :=
  match Xml.read? document with
  | none => .error .malformedXml
  | some root =>
    if root.name ≠ "SavedData" then .error (.unexpectedRoot root.name)
    else do
      let rows ← countOf root "Rows"
      let columns ← countOf root "Cols"
      let records := ((root.child? "Cells").map Xml.Element.children).getD []
      let entries := records.filterMap recordOf?
      return ⟨ofTexts rows columns (.ofList entries), records.length - entries.length⟩

end Spreadsheet.Sheet
