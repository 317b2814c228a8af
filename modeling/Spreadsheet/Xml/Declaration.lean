import Spreadsheet.Xml.Markup

/-!
# Declarations of documents

A document may begin with a declaration of its version, its encoding and whether it stands alone.
The declaration must be well formed, but since the document is text already, what it says is of no
consequence.

## Main definitions

* `Xml.skipDeclaration?` — what follows the declaration.
-/

namespace Spreadsheet.Xml

/-- Whether a character may stand in a declared value. -/
def isDeclared (c : Char) : Bool :=
  c.isAlphanum || c == '.' || c == '-' || c == '_'

/-- A name and its quoted value, set off by white space, and what follows them. At the end of a
declaration there is none. -/
def takeDeclared? (s : List Char) : Option (Option (List Char × List Char) × List Char) :=
  match s with
  | [] => some (none, [])
  | c :: _ =>
    if !isSpace c then none
    else
      let s := skipSpace s
      if s.isEmpty then some (none, [])
      else
        let name := s.takeWhile fun c => !isSpace c && c ≠ '='
        match skipSpace (s.dropWhile fun c => !isSpace c && c ≠ '=') with
        | '=' :: s =>
          match skipSpace s with
          | quote :: s =>
            let value := s.takeWhile isDeclared
            let rest := s.dropWhile isDeclared
            if (quote = '"' ∨ quote = '\'') ∧ rest.head? = some quote then
              some (some (name, value), rest.tail)
            else
              none
          | [] => none
        | _ => none

/-- Whether what is left of a declaration says at most whether the document stands alone. -/
def isStandaloneEnd (s : List Char) : Bool :=
  match takeDeclared? s with
  | some (none, _) => true
  | some (some (name, value), rest) =>
    name == "standalone".toList && (value == "yes".toList || value == "no".toList) &&
      rest.all isSpace
  | none => false

/-- Whether a declaration is well formed: a version, then perhaps an encoding, whose name begins
with a letter, then perhaps whether the document stands alone. -/
def isDeclaration (s : List Char) : Bool :=
  match takeDeclared? s with
  | some (some (name, _), rest) =>
    name == "version".toList &&
      match takeDeclared? rest with
      | some (some (name, value), rest') =>
        if name == "encoding".toList then
          (value.head?.map Char.isAlpha).getD false && isStandaloneEnd rest'
        else
          isStandaloneEnd rest
      | some (none, _) => true
      | none => false
  | _ => false

/-- What follows the declaration with which a document may begin. -/
def skipDeclaration? (s : List Char) : Option (List Char) :=
  match s with
  | '<' :: '?' :: 'x' :: 'm' :: 'l' :: rest =>
    if (rest.head?.map isNameChar).getD false then some s
    else
      match splitAt? ['?', '>'] rest with
      | some (declaration, rest) => if isDeclaration declaration then some rest else none
      | none => none
  | _ => some s

end Spreadsheet.Xml
