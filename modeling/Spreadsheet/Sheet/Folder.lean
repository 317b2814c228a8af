import Spreadsheet.Sheet.Csv
import Spreadsheet.Sheet.Edit
import Spreadsheet.Sheet.Worksheet
import Spreadsheet.Sheet.Xml
import Spreadsheet.Text.LineEnd
import Spreadsheet.Worksheet.Archive
import Spreadsheet.Worksheet.Stored

/-!
# Files of sheets

Sheets are saved to files and loaded from them. The last part of the name of a file decides on the
format: comma-separated text, a workbook, or a document, which is the format of all other names.
Text is written as it is; when it is read, line ends become line feeds.

## Main definitions

* `FileFormat` — the formats; `FileFormat.ofName` chooses one.
* `Folder` — files under their names.
* `Folder.save`, `Folder.load` — sheets to files and back.
-/

namespace Spreadsheet

/-! ## Formats -/

/-- The formats of files. -/
inductive FileFormat
  | document
  | delimited
  | workbook
deriving DecidableEq, Repr, Inhabited

namespace FileFormat

/-- The last point of a name and what follows it, if something precedes and something follows
it. -/
def suffix (name : List Char) : List Char :=
  let last := (name.reverse.takeWhile (· ≠ '.')).reverse
  if last.isEmpty || name.length ≤ last.length + 1 then [] else '.' :: last

/-- The format of a file of this name. The case of letters does not matter. -/
def ofName (name : String) : FileFormat :=
  let suffix := (suffix name.toList).map lowerChar
  if suffix = ".xlsx".toList then workbook
  else if suffix = ".csv".toList then delimited
  else document

/-- Whether a workbook can be read from a file of this name: points alone before the suffix do not
make it a suffix. -/
def isSupported (name : String) : Bool :=
  (name.toList.dropWhile (· = '.')).contains '.'

end FileFormat

/-! ## Files -/

/-- What a file holds. -/
inductive File
  | text (s : String)
  /-- Bytes that encode no text. -/
  | bytes (b : ByteArray)
  | workbook (b : Workbook)
deriving Inhabited

instance : DecidableEq File
  | .text s, .text t => decidable_of_iff (s = t) (by simp)
  | .bytes b, .bytes c => decidable_of_iff (b.data = c.data) (by simp [ByteArray.ext_iff])
  | .workbook b, .workbook c => decidable_of_iff (b = c) (by simp)
  | .text _, .bytes _ | .text _, .workbook _ | .bytes _, .text _ | .bytes _, .workbook _
  | .workbook _, .text _ | .workbook _, .bytes _ => isFalse (by simp)

/-- The file of some bytes. -/
def File.ofBytes (b : ByteArray) : File :=
  match String.fromUTF8? b with
  | some s => text s
  | none => bytes b

/-- Files under their names; a later file comes first. There are no folders within the folder. -/
structure Folder where
  files : List (String × File)
deriving DecidableEq, Inhabited

namespace Folder

/-- A folder without files. -/
def empty : Folder :=
  ⟨[]⟩

/-- The parts of a path. A point stands for the folder that it is written in. -/
def pathParts (path : String) : List String :=
  ((path.splitToList (· = '/')).filter (· ≠ "")).filter (· ≠ ".")

/-- The greatest length of a name in bytes. -/
def nameLimit : Nat :=
  255

/-- The name to which a path leads in a folder without folders. -/
def nameOf (path : String) : Except Error String :=
  if path.toList.contains '\x00' then .error .nullInName
  else
    match pathParts path with
    | [] | [".."] => .error (.notAFile path)
    | [name] => if nameLimit < name.utf8ByteSize then .error .nameTooLong else .ok name
    | _ => .error (.missingFile path)

/-- The last part of a path, which decides on the format of the file. -/
def lastPart (path : String) : String :=
  (pathParts path).getLastD ""

/-- The file to which a path leads. -/
def get (f : Folder) (path : String) : Except Error File := do
  match f.files.lookup (← nameOf path) with
  | some file => .ok file
  | none => .error (.missingFile path)

/-- Puts a file into the folder, in the place of one of the same name. -/
def put (f : Folder) (path : String) (file : File) : Except Error Folder :=
  (nameOf path).map fun name => ⟨(name, file) :: f.files.filter (·.1 ≠ name)⟩

/-- The file to which a sheet is saved under a name. -/
def fileFor (s : Sheet) (name : String) : Except Error File :=
  match FileFormat.ofName name with
  | .workbook => (s.toWorkbook Sheet.worksheetTitle).map .workbook
  | .delimited => s.toCsv.map .text
  | .document => .ok (.text s.toXml)

/-- Saves a sheet: the folder with its file, and the sheet without unsaved changes. -/
def save (f : Folder) (s : Sheet) (path : String) : Except Error (Folder × Sheet) := do
  let file ← fileFor s (lastPart path)
  return (← f.put path file, s.markClean)

/-- The text of a file, with line feeds at the ends of lines. -/
def readText (f : Folder) (path : String) : Except Error String := do
  match ← f.get path with
  | .text s => .ok (String.ofList (Text.normalizeLines s.toList))
  | _ => .error (.undecodableFile path)

/-- The workbook of a file, as it is read from there. -/
def readWorkbook (f : Folder) (path : String) : Except Error Workbook := do
  if !FileFormat.isSupported (lastPart path) then .error (.unsupportedName path)
  else
    match ← f.get path with
    | .workbook b => return ⟨← b.worksheets.mapM Worksheet.stored⟩
    | .text s => .error (Archive.fault path s.toUTF8.toList)
    | .bytes b => .error (Archive.fault path b.toList)

/-- Loads a sheet. -/
def load (f : Folder) (path : String) : Except Error Sheet := do
  match FileFormat.ofName (lastPart path) with
  | .workbook => Sheet.ofWorkbook (← f.readWorkbook path) none
  | .delimited => Sheet.ofCsv (← f.readText path)
  | .document => return (← Sheet.ofXml (← f.readText path)).sheet

end Folder

end Spreadsheet
