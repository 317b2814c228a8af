import Spreadsheet.Error
import Spreadsheet.Formula.Token
import Spreadsheet.Text.Uppercase

/-!
# From formulas to tokens

A formula is read from left to right, separators left out. At each place the first of these rules
applies that can:

1. one of the words `mod`, `div`, `inc` and `dec` in any case,
2. an operator of two characters, an operator of one character, or a parenthesis,
3. letters of ASCII and digits after them, as many as there are of each: a cell,
4. digits, and a point with digits after it if there are any: a number.

A character at which no rule applies is stray, and reading goes on behind it.

## Main definitions

* `Lexeme`, `lexeme?` — what stands at the head of a text.
* `Piece`, `pieces` — a formula cut into tokens and stray characters.
* `tokenize` — the tokens of a formula without stray characters.
-/

namespace Spreadsheet

/-! ## Lexemes -/

/-- Separators carry no meaning, not even between letters. -/
def isSeparator (c : Char) : Bool :=
  c == ' ' || c == '\t' || c == '\r' || c == '\n'

/-- A letter of ASCII in lower case; other characters are left as they are. -/
def lowerChar (c : Char) : Char :=
  if 'A' ≤ c ∧ c ≤ 'Z' then Char.ofNat (c.toNat + 32) else c

/-- Whether a character is a letter of ASCII. -/
def isLetter (c : Char) : Bool :=
  'a' ≤ lowerChar c && lowerChar c ≤ 'z'

/-- What stands at the head of a text: the kind of token, its text, and the number of characters
that it takes up. -/
structure Lexeme where
  kind : Token.Kind
  text : List Char
  length : Nat
deriving DecidableEq, Repr

/-- The kind of the token that a word stands for. -/
def wordKind? (word : List Char) : Option Token.Kind :=
  if word = ['m', 'o', 'd'] ∨ word = ['d', 'i', 'v'] then some .operator
  else if word = ['i', 'n', 'c'] ∨ word = ['d', 'e', 'c'] then some .function
  else none

/-- A word at the head; what follows it does not matter. -/
def wordLexeme? (s : List Char) : Option Lexeme :=
  let word := (s.take 3).map lowerChar
  (wordKind? word).map fun kind => ⟨kind, word, 3⟩

/-- An operator or parenthesis at the head. -/
def symbolLexeme? : List Char → Option Lexeme
  | '<' :: '>' :: _ => some ⟨.operator, ['<', '>'], 2⟩
  | '<' :: '=' :: _ => some ⟨.operator, ['<', '='], 2⟩
  | '>' :: '=' :: _ => some ⟨.operator, ['>', '='], 2⟩
  | '(' :: _ => some ⟨.openParen, ['('], 1⟩
  | ')' :: _ => some ⟨.closeParen, [')'], 1⟩
  | c :: _ =>
    if ['+', '-', '*', '/', '=', '<', '>'].contains c then some ⟨.operator, [c], 1⟩ else none
  | [] => none

/-- A cell at the head. -/
def cellLexeme? (s : List Char) : Option Lexeme :=
  let letters := s.takeWhile isLetter
  let digits := (s.dropWhile isLetter).takeWhile Char.isDigit
  if letters.isEmpty || digits.isEmpty then none
  else some ⟨.cell, (letters ++ digits).flatMap Text.upperChar, letters.length + digits.length⟩

/-- The point and the digits after it, if the text begins with both. -/
def fraction : List Char → List Char
  | '.' :: s =>
    let digits := s.takeWhile Char.isDigit
    if digits.isEmpty then [] else '.' :: digits
  | _ => []

/-- A number at the head. -/
def numberLexeme? (s : List Char) : Option Lexeme :=
  let whole := s.takeWhile Char.isDigit
  if whole.isEmpty then none
  else
    let text := whole ++ fraction (s.dropWhile Char.isDigit)
    some ⟨.number, text, text.length⟩

/-- What stands at the head of a text, by the first rule that applies. -/
def lexeme? (s : List Char) : Option Lexeme :=
  (wordLexeme? s).or <| (symbolLexeme? s).or <| (cellLexeme? s).or (numberLexeme? s)

/-! ## Pieces -/

/-- A piece of a formula. -/
inductive Piece
  | token (t : Token)
  | stray (c : Char)
deriving DecidableEq, Repr

/-- The token of a piece. -/
def Piece.token? : Piece → Option Token
  | token t => some t
  | stray _ => none

/-- The stray character of a piece. -/
def Piece.stray? : Piece → Option Char
  | token _ => none
  | stray c => some c

/-- Cuts a text that begins at `position` into pieces. The first `covered` characters belong to
the token before. -/
def piecesFrom : Nat → Nat → List Char → List Piece
  | _, _, [] => []
  | position, covered + 1, _ :: s => piecesFrom (position + 1) covered s
  | position, 0, c :: s =>
    match lexeme? (c :: s) with
    | some l =>
      .token ⟨l.kind, String.ofList l.text, position⟩ ::
        piecesFrom (position + 1) (l.length - 1) s
    | none => .stray c :: piecesFrom (position + 1) 0 s

/-- A formula without its separators. -/
def withoutSeparators (formula : String) : List Char :=
  formula.toList.filter (!isSeparator ·)

/-- The pieces of a formula. -/
def pieces (formula : String) : List Piece :=
  piecesFrom 0 0 (withoutSeparators formula)

/-! ## Tokens -/

/-- The first function that is not followed by an opening parenthesis. -/
def bareFunction? : List Token → Option Token
  | [] => none
  | t :: ts =>
    if t.kind = .function ∧ (ts.head?.map Token.kind) ≠ some .openParen then some t
    else bareFunction? ts

/-- The tokens of a formula. A comma has an error of its own; stray characters are reported
together; functions must be called. -/
def tokenize (formula : String) : Except Error (List Token) :=
  if formula.toList.contains ',' then .error .commaInFormula
  else
    let pieces := pieces formula
    let strays := pieces.filterMap Piece.stray?
    if !strays.isEmpty then .error (.strayCharacters (String.ofList strays))
    else
      let tokens := pieces.filterMap Piece.token?
      match bareFunction? tokens with
      | some t => .error (.functionWithoutParentheses t.text t.position)
      | none => .ok tokens

end Spreadsheet
