/-!
# Text in documents

The characters that a document may hold, and references. A reference names a character
by its number or, for the five characters of markup, by a word.

## Main definitions

* `Xml.isAllowed`, `Xml.isSpace` — characters of documents.
* `Xml.escape`, `Xml.unescape` — text with references in place of characters of markup.
-/

namespace Spreadsheet.Xml

/-! ## Characters -/

/-- Whether a document may hold a character. -/
def isAllowed (c : Char) : Bool :=
  let n := c.toNat
  n == 0x9 || n == 0xa || n == 0xd || (0x20 ≤ n && n ≤ 0xfffd) || 0x10000 ≤ n

/-- White space between the parts of markup. -/
def isSpace (c : Char) : Bool :=
  c == ' ' || c == '\t' || c == '\r' || c == '\n'

/-! ## References -/

/-- The references by which text is written. -/
def escapeChar (c : Char) : List Char :=
  if c = '&' then "&amp;".toList
  else if c = '<' then "&lt;".toList
  else if c = '>' then "&gt;".toList
  else [c]

/-- A text with references in place of characters that would be markup. -/
def escape (s : List Char) : List Char :=
  s.flatMap escapeChar

/-- The value of a digit in base sixteen. -/
def hexValue? (c : Char) : Option Nat :=
  if c.isDigit then some (c.toNat - '0'.toNat)
  else if 'a' ≤ c ∧ c ≤ 'f' then some (c.toNat - 'a'.toNat + 10)
  else if 'A' ≤ c ∧ c ≤ 'F' then some (c.toNat - 'A'.toNat + 10)
  else none

/-- The number that digits are written for, if it is one of at most `1114111`, the greatest
number of a character, so that no long number is formed. -/
def codeFrom? (base : Nat) : Nat → List Char → Option Nat
  | n, [] => if n ≤ 0x10ffff then some n else none
  | n, c :: s =>
    (hexValue? c).bind fun d =>
      if d < base ∧ n ≤ 0x10ffff then codeFrom? base (base * n + d) s else none

/-- The allowed character with a given number. -/
def charOfCode? (n : Nat) : Option Char :=
  if h : n.isValidChar then (some (Char.ofNatAux n h)).filter isAllowed else none

/-- The character that the part of a reference between `&` and `;` stands for. -/
def referent? (body : List Char) : Option Char :=
  match body with
  | ['l', 't'] => some '<'
  | ['g', 't'] => some '>'
  | ['a', 'm', 'p'] => some '&'
  | ['q', 'u', 'o', 't'] => some '"'
  | ['a', 'p', 'o', 's'] => some '\''
  | '#' :: 'x' :: c :: digits => codeFrom? 16 0 (c :: digits) >>= charOfCode?
  | '#' :: c :: digits => codeFrom? 10 0 (c :: digits) >>= charOfCode?
  | _ => none

/-- The text with characters in place of references, if all of them stand for one. While a
reference is read, `pending` holds what follows its `&`, in reverse. -/
def unescapeFrom (pending : Option (List Char)) : List Char → Option (List Char)
  | [] => if pending.isSome then none else some []
  | c :: s =>
    match pending with
    | none =>
      if c = '&' then unescapeFrom (some []) s else (unescapeFrom none s).map (c :: ·)
    | some body =>
      if c = ';' then do
        let r ← referent? body.reverse
        return r :: (← unescapeFrom none s)
      else
        unescapeFrom (some (c :: body)) s

/-- The text with characters in place of references. -/
def unescape (s : List Char) : Option (List Char) :=
  unescapeFrom none s

end Spreadsheet.Xml
