import Spreadsheet.Proofs.Formula.Expression

/-!
# The grammar of formulas

Formulas are phrases of four levels. Comparisons are made of sums, sums of products and products of
primaries; an operator has a phrase of its own level on its left and a tighter one on its right, so
operators of one level group to the left. A primary is a number, a cell, a group in parentheses or a
function with a group.

Texts render phrases with letters in any case and with blanks anywhere, even within words.

## Main definitions

* `Level`, `BinaryOperator.level` — what binds how tightly.
* `CellWord` — the spelling of a cell.
* `Phrase` — the derivations of the grammar.
* `Phrase.expr` — the tree that a phrase stands for.
* `Phrase.Renders` — the texts of a phrase.
-/

namespace Spreadsheet

/-! ## Levels -/

/-- The levels of the grammar, the loosest first. -/
inductive Level
  | comparison
  | sum
  | product
  | primary
deriving DecidableEq, Repr

/-- The next tighter level. Nothing is tighter than a primary. -/
def Level.tighter : Level → Level
  | comparison => sum
  | sum => product
  | product | primary => primary

/-- The level of the phrases that an operator makes. -/
def BinaryOperator.level : BinaryOperator → Level
  | eq | lt | gt | le | ge | ne => .comparison
  | add | sub => .sum
  | mul | div | mod | quotient => .product

/-! ## Cells -/

/-- The words of formulas, which no cell may begin with. -/
def reservedWords : List String :=
  ["mod", "div", "inc", "dec"]

/-- A cell as formulas spell it: letters of ASCII and digits, with no word at the head. -/
structure CellWord where
  letters : List Char
  digits : List Char
  letters_ne_nil : letters ≠ []
  digits_ne_nil : digits ≠ []
  isAlpha_letters : ∀ c ∈ letters, c.isAlpha
  isDigit_digits : ∀ c ∈ digits, c.isDigit
  not_reserved : ∀ w ∈ reservedWords, ¬ w.toList <+: (letters ++ digits).map Char.toLower

def CellWord.chars (c : CellWord) : List Char :=
  c.letters ++ c.digits

/-- The name of a cell, in upper case. -/
def CellWord.name (c : CellWord) : String :=
  String.ofList (c.chars.map Char.toUpper)

/-! ## Phrases -/

/-- The phrases of each level. -/
inductive Phrase : Level → Type
  | number (n : NumberWord) : Phrase .primary
  | cell (c : CellWord) : Phrase .primary
  | group (e : Phrase .comparison) : Phrase .primary
  | call (f : UnaryFunction) (e : Phrase .comparison) : Phrase .primary
  | binary (op : BinaryOperator) (left : Phrase op.level) (right : Phrase op.level.tighter) :
      Phrase op.level
  | tighter {level : Level} (e : Phrase level.tighter) : Phrase level

namespace Phrase

variable {level : Level}

/-- The tree of a phrase. Groups leave no trace in it. -/
def expr {level : Level} : Phrase level → Expr
  | number n => .number n
  | cell c => .cell c.name
  | group e => e.expr
  | call f e => .call f e.expr
  | binary op l r => .binary op l.expr r.expr
  | tighter e => e.expr

/-- The words of a phrase in the order of reading. -/
def words {level : Level} : Phrase level → List Word
  | number n => [⟨.number, n.text⟩]
  | cell c => [⟨.cell, c.name⟩]
  | group e => ⟨.openParen, "("⟩ :: e.words ++ [⟨.closeParen, ")"⟩]
  | call f e => ⟨.function, f.symbol⟩ :: ⟨.openParen, "("⟩ :: e.words ++ [⟨.closeParen, ")"⟩]
  | binary op l r => l.words ++ ⟨.operator, op.symbol⟩ :: r.words
  | tighter e => e.words

/-- The characters of a phrase, with words in lower case and without blanks. -/
def spelling {level : Level} : Phrase level → List Char
  | number n => n.chars
  | cell c => c.chars
  | group e => '(' :: e.spelling ++ [')']
  | call f e => f.symbol.toList ++ '(' :: e.spelling ++ [')']
  | binary op l r => l.spelling ++ op.symbol.toList ++ r.spelling
  | tighter e => e.spelling

/-- Whether a text renders a phrase: spaces, tabs, carriage returns and line feeds apart, it spells
the phrase with letters in any case. -/
def Renders (e : Phrase level) (text : String) : Prop :=
  (text.toList.filter (· ∉ [' ', '\t', '\r', '\n'])).map Char.toLower =
    e.spelling.map Char.toLower

end Phrase

end Spreadsheet
