import Spreadsheet.Xml.NameChar
import Spreadsheet.Xml.Text

/-!
# Markup

A document is a sequence of tags, character data, comments and instructions. This module cuts a
document into these parts; whether they fit together is not its concern.

## Main definitions

* `Xml.Markup` — a part of a document.
* `Xml.QName` — names with an optional namespace mark.
* `Xml.markup` — the parts of a document.
-/

namespace Spreadsheet.Xml

/-- A name with the mark of its namespace, which stands before a colon and may be missing. -/
structure QName where
  mark : Option (List Char)
  name : List Char
deriving DecidableEq, Repr

/-- An attribute with its value. -/
structure Attribute where
  name : QName
  value : List Char
deriving DecidableEq, Repr

/-- A part of a document. -/
inductive Markup
  /-- A start tag, or the tag of an element without content. -/
  | start (name : QName) (attributes : List Attribute) (isEmpty : Bool)
  /-- An end tag. -/
  | finish (name : QName)
  /-- Character data as it is written, with its references. -/
  | data (raw : List Char)
  /-- A section whose characters stand for themselves. -/
  | section (text : List Char)
  /-- A comment or an instruction. -/
  | skipped
deriving DecidableEq, Repr

/-! ## Scanning -/

/-- What precedes and what follows the first occurrence of `mark`. -/
def splitAt? (mark : List Char) : List Char → Option (List Char × List Char)
  | [] => if mark.isEmpty then some ([], []) else none
  | c :: s =>
    if mark.isPrefixOf (c :: s) then some ([], (c :: s).drop mark.length)
    else (splitAt? mark s).map fun (before, after) => (c :: before, after)

/-- What follows white space. -/
def skipSpace (s : List Char) : List Char :=
  s.dropWhile isSpace

/-- A name without a colon at the head, and what follows it. -/
def takeName? : List Char → Option (List Char × List Char)
  | c :: s =>
    if isNameStart c then some (c :: s.takeWhile isNameChar, s.dropWhile isNameChar) else none
  | [] => none

/-- A name at the head, with its namespace mark if a colon follows, and what follows it. -/
def takeQName? (s : List Char) : Option (QName × List Char) := do
  let (name, s) ← takeName? s
  match s with
  | ':' :: s =>
    let (localName, s) ← takeName? s
    return (⟨some name, localName⟩, s)
  | _ => return (⟨none, name⟩, s)

/-- The value that is written between the quotation marks of an attribute. White space counts as
blanks, and `<` is not allowed. -/
def attributeValue? (raw : List Char) : Option (List Char) :=
  if raw.contains '<' then none
  else unescape (raw.map fun c => if isSpace c then ' ' else c)

/-- An attribute at the head, and what follows it. -/
def takeAttribute? (s : List Char) : Option (Attribute × List Char) := do
  let (name, s) ← takeQName? s
  match skipSpace s with
  | '=' :: s =>
    match skipSpace s with
    | quote :: s =>
      if quote = '"' ∨ quote = '\'' then
        let (raw, s) ← splitAt? [quote] s
        return (⟨name, ← attributeValue? raw⟩, s)
      else
        none
    | [] => none
  | _ => none

/-- What precedes the `>` that ends a tag, and what follows it. Between quotation marks, of which
`quote` is the one that is open, a `>` has no meaning. -/
def splitTag? (quote : Option Char) : List Char → Option (List Char × List Char)
  | [] => none
  | c :: s =>
    match quote with
    | none =>
      if c = '>' then some ([], s)
      else
        (splitTag? (if c = '"' ∨ c = '\'' then some c else none) s).map fun (tag, rest) =>
          (c :: tag, rest)
    | some q =>
      (splitTag? (if c = q then none else some q) s).map fun (tag, rest) => (c :: tag, rest)

/-- The attributes of a tag, and whether its element is empty. White space sets attributes off,
and a slash at the end marks an empty element. There are no more attributes than the number
says. -/
def attributes? : Nat → List Char → Option (List Attribute × Bool)
  | _, [] => some ([], false)
  | _, ['/'] => some ([], true)
  | 0, _ => none
  | more + 1, c :: s =>
    if isSpace c then
      match skipSpace s with
      | [] => some ([], false)
      | ['/'] => some ([], true)
      | s => do
        let (a, s) ← takeAttribute? s
        let (rest, isEmpty) ← attributes? more s
        return (a :: rest, isEmpty)
    else
      none

/-- A start tag behind its `<`. -/
def takeStart? (s : List Char) : Option (Markup × List Char) := do
  let (tag, rest) ← splitTag? none s
  let (name, tag) ← takeQName? tag
  let (attributes, isEmpty) ← attributes? tag.length tag
  return (.start name attributes isEmpty, rest)

/-- An end tag behind its `</`. -/
def takeFinish? (s : List Char) : Option (Markup × List Char) := do
  let (name, s) ← takeQName? s
  match skipSpace s with
  | '>' :: s => return (.finish name, s)
  | _ => none

/-- A comment behind its `<!--`. Two hyphens may stand only at its end. -/
def takeComment? (s : List Char) : Option (Markup × List Char) := do
  let (_, s) ← splitAt? ['-', '-'] s
  match s with
  | '>' :: s => return (.skipped, s)
  | _ => none

/-- A section behind its `<![CDATA[`. -/
def takeSection? (s : List Char) : Option (Markup × List Char) := do
  let (text, s) ← splitAt? [']', ']', '>'] s
  return (.section text, s)

/-- Whether a name is a spelling of the word that declares a document. -/
def isDeclarationName (name : List Char) : Bool :=
  match name with
  | [x, m, l] => (x == 'x' || x == 'X') && (m == 'm' || m == 'M') && (l == 'l' || l == 'L')
  | _ => false

/-- An instruction behind its `<?`. Its name is followed by white space or by its end. -/
def takeInstruction? (s : List Char) : Option (Markup × List Char) := do
  let (name, s) ← takeName? s
  if isDeclarationName name then none
  else
    match s with
    | '?' :: '>' :: s => return (.skipped, s)
    | c :: s =>
      if isSpace c then
        let (_, s) ← splitAt? ['?', '>'] s
        return (.skipped, s)
      else
        none
    | [] => none

/-- The part of a document at the head of a text that is not empty, and what follows it. -/
def takeMarkup? (s : List Char) : Option (Markup × List Char) :=
  match s with
  | '<' :: '/' :: s => takeFinish? s
  | '<' :: '!' :: '-' :: '-' :: s => takeComment? s
  | '<' :: '!' :: '[' :: 'C' :: 'D' :: 'A' :: 'T' :: 'A' :: '[' :: s => takeSection? s
  | '<' :: '?' :: s => takeInstruction? s
  | '<' :: s => takeStart? s
  | _ => some (.data (s.takeWhile (· ≠ '<')), s.dropWhile (· ≠ '<'))

/-- The parts of a text, of which there are no more than the number says. -/
def markupUpTo : Nat → List Char → Option (List Markup)
  | _, [] => some []
  | 0, _ :: _ => none
  | more + 1, s => do
    let (m, s) ← takeMarkup? s
    return m :: (← markupUpTo more s)

/-- The parts of a text. Each takes up at least one character. -/
def markup (s : List Char) : Option (List Markup) :=
  markupUpTo s.length s

end Spreadsheet.Xml
