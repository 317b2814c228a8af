import Spreadsheet.Text.LineEnd
import Spreadsheet.Xml.Declaration

/-!
# Elements

The tree of elements of a document. Of an element only its name without namespace, the text before
its first child and its children are kept. A document is well formed if its tags are nested, its
one root is surrounded by nothing but white space, comments and instructions, and its attributes
and namespace marks obey the rules.

## Main definitions

* `Xml.Element` — the tree.
* `Xml.Scope` — the namespace marks in force.
* `Xml.Progress` — how far a tree has been built.
* `Xml.read?` — the root of a document, if it is well formed.
-/

namespace Spreadsheet.Xml

/-- An element: its name, the text before its first child, and its children. -/
inductive Element
  | node (name : String) (text : String) (children : List Element)
deriving Inhabited

namespace Element

/-- The name without namespace. -/
def name : Element → String
  | node name _ _ => name

/-- The text before the first child. -/
def text : Element → String
  | node _ text _ => text

/-- The children in order. -/
def children : Element → List Element
  | node _ _ children => children

/-- The first child of a name. -/
def child? (e : Element) (name : String) : Option Element :=
  e.children.find? (·.name == name)

end Element

/-! ## Namespaces -/

/-- The namespaces that marks stand for; the innermost declaration comes first. The empty mark
stands for the namespace of names without one. -/
abbrev Scope := List (List Char × List Char)

/-- A namespace whose name has these segments. -/
def namespaceOf (segments : List String) : List Char :=
  (String.intercalate "/" segments).toList

/-- The mark of the namespace that every document may use, and its namespace. -/
def reservedMark : List Char :=
  "xml".toList

/-- The namespace of the reserved mark. -/
def reservedNamespace : List Char :=
  namespaceOf ["http:", "", "www.w3.org", "XML", "1998", "namespace"]

/-- The mark, or the name without a mark, of attributes that declare a mark. -/
def declaringMark : List Char :=
  "xmlns".toList

/-- The namespace of declarations, which cannot be declared. -/
def declaringNamespace : List Char :=
  namespaceOf ["http:", "", "www.w3.org", "2000", "xmlns", ""]

/-- The scope of a document. -/
def Scope.initial : Scope :=
  [(reservedMark, reservedNamespace)]

/-- The mark that an attribute declares; an attribute without a mark declares the empty one. -/
def declaredMark? (n : QName) : Option (List Char) :=
  match n.mark with
  | none => if n.name = declaringMark then some [] else none
  | some mark => if mark = declaringMark then some n.name else none

/-- Whether a mark may stand for a namespace. Only the empty mark may be without one; the reserved
mark and its namespace belong together; the marks and namespaces of declarations are not for use;
and a brace may not occur. -/
def isDeclarable (mark uri : List Char) : Bool :=
  !(uri.isEmpty && !mark.isEmpty) && mark != declaringMark && !uri.contains '\x7d' &&
    (mark == reservedMark) == (uri == reservedNamespace) && uri != declaringNamespace

/-- The scope below the attributes of a tag. -/
def Scope.declare? (scope : Scope) : List Attribute → Option Scope
  | [] => some scope
  | a :: rest =>
    match declaredMark? a.name with
    | none => scope.declare? rest
    | some mark =>
      if isDeclarable mark a.value then (scope.declare? rest).map ((mark, a.value) :: ·) else none

/-- The attributes that have a mark and declare none, with their namespaces, if all of these are
declared. -/
def Scope.expanded? (scope : Scope) (attributes : List Attribute) :
    Option (List (List Char × List Char)) :=
  (attributes.filter fun a => (declaredMark? a.name).isNone).filterMapM fun a =>
    match a.name.mark with
    | none => some none
    | some mark => (scope.lookup mark).map fun uri => some (uri, a.name.name)

/-- Whether a list repeats nothing. -/
def isDistinct {α : Type} [BEq α] : List α → Bool
  | [] => true
  | a :: l => !l.contains a && isDistinct l

/-- The scope inside of a tag, if the tag is well formed: no attribute is repeated, not even with
another mark for its namespace, and all marks are declared. -/
def Scope.enter? (scope : Scope) (name : QName) (attributes : List Attribute) : Option Scope := do
  let inner ← scope.declare? attributes
  let expanded ← inner.expanded? attributes
  let isKnown := (name.mark.map fun mark => (inner.lookup mark).isSome).getD true
  if isDistinct (attributes.map Attribute.name) && isDistinct expanded && isKnown then some inner
  else none

/-! ## Building the tree -/

/-- An element whose end tag is still to come. Its text and its children are kept in reverse. -/
structure Frame where
  tag : QName
  scope : Scope
  text : List Char
  children : List Element

/-- The element of a frame. -/
def Frame.element (f : Frame) : Element :=
  .node (String.ofList f.tag.name) (String.ofList f.text.reverse) f.children.reverse

/-- Adds text, which counts only before the first child. -/
def Frame.addText (f : Frame) (s : List Char) : Frame :=
  if f.children.isEmpty then { f with text := s.reverse ++ f.text } else f

/-- Adds a child. -/
def Frame.addChild (f : Frame) (e : Element) : Frame :=
  { f with children := e :: f.children }

/-- How far a tree has been built. -/
inductive Progress
  /-- The root is still to come. -/
  | before
  /-- An element is open, within others. -/
  | inside (frame : Frame) (outer : List Frame)
  /-- The root is complete. -/
  | after (root : Element)

namespace Progress

/-- Adds a complete element to the one that it lies in. -/
def complete (e : Element) : List Frame → Progress
  | [] => after e
  | f :: outer => inside (f.addChild e) outer

/-- Whether raw character data may stand in an element: the end of a section may not. -/
def isContent (raw : List Char) : Bool :=
  (splitAt? [']', ']', '>'] raw).isNone

/-- Opens an element in a scope. -/
def openElement? (scope : Scope) (outer : List Frame) (name : QName)
    (attributes : List Attribute) (isEmpty : Bool) : Option Progress := do
  let inner ← scope.enter? name attributes
  let frame : Frame := ⟨name, inner, [], []⟩
  return if isEmpty then complete frame.element outer else inside frame outer

/-- Takes the next part of a document. -/
def step? : Progress → Markup → Option Progress
  | p, .skipped => some p
  | inside f outer, .data raw =>
    if isContent raw then (unescape raw).map fun s => inside (f.addText s) outer else none
  | p, .data raw => if raw.all isSpace then some p else none
  | inside f outer, .section s => some (inside (f.addText s) outer)
  | _, .section _ => none
  | before, .start name attributes isEmpty =>
    openElement? .initial [] name attributes isEmpty
  | inside f outer, .start name attributes isEmpty =>
    openElement? f.scope (f :: outer) name attributes isEmpty
  | after _, .start _ _ _ => none
  | inside f outer, .finish name => if name = f.tag then some (complete f.element outer) else none
  | _, .finish _ => none

/-- The complete root. -/
def root? : Progress → Option Element
  | after e => some e
  | _ => none

end Progress

/-- The text behind a byte order mark. -/
def skipByteOrderMark : List Char → List Char
  | c :: s => if c = '\uFEFF' then s else c :: s
  | [] => []

/-- The root of a document, if the document is well formed. -/
def read? (document : String) : Option Element := do
  let s := skipByteOrderMark (Text.normalizeLines document.toList)
  if s.all isAllowed then
    let parts ← markup (← skipDeclaration? s)
    let progress ← parts.foldlM Progress.step? Progress.before
    progress.root?
  else
    none

end Spreadsheet.Xml
