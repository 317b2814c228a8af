import Spreadsheet.Xml.Text

/-!
# Written elements

Elements as they are written: an element of text on one line, an element of elements with one
line or more for each, two blanks deeper. An element with nothing in it has a single tag.

## Main definitions

* `Xml.leaf` — an element with text.
* `Xml.group` — an element with elements in it.
* `Xml.document` — a root with a declaration before it.
-/

namespace Spreadsheet.Xml

/-- The tag of an element without content. -/
def emptyTag (name : String) : List Char :=
  '<' :: name.toList ++ " />".toList

/-- Content between start tag and end tag. -/
def between (name : String) (content : List Char) : List Char :=
  '<' :: name.toList ++ '>' :: content ++ '<' :: '/' :: name.toList ++ ['>']

/-- The beginning of a line, `level` levels deep. -/
def newLine (level : Nat) : List Char :=
  '\n' :: List.replicate (2 * level) ' '

/-- An element with text. -/
def leaf (name text : String) : List Char :=
  if text = "" then emptyTag name else between name (escape text.toList)

/-- An element with elements in it, `level` levels deep. -/
def group (level : Nat) (name : String) (elements : List (List Char)) : List Char :=
  if elements.isEmpty then emptyTag name
  else between name (elements.flatMap (newLine (level + 1) ++ ·) ++ newLine level)

/-- The declaration with which a document begins. -/
def declaration : List Char :=
  "<?xml version=\"1.0\" encoding=\"utf-8\"?>\n".toList

/-- A document with a root. -/
def document (root : List Char) : String :=
  String.ofList (declaration ++ root)

end Spreadsheet.Xml
