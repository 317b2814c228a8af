import Spreadsheet.Formula.Machine

/-!
# Expressions

The trees that formulas stand for. A tree has numbers and cells as leaves and functions and
operators as inner nodes; it knows nothing of parentheses, of positions or of a stack. Its meaning
is given by recursion, and its postorder by a list of words.

## Main definitions

* `Word` — a token without its position.
* `NumberWord` — the spelling of a number.
* `Expr` — the trees; `Expr.postorder` lists their words.
* `Expr.eval` — the meaning of a tree, given the values of cells.
-/

namespace Spreadsheet

/-! ## Words -/

/-- The kind and the text of a token. -/
structure Word where
  kind : Token.Kind
  text : String
deriving DecidableEq, Repr

/-- A token without its position. -/
def Token.word (t : Token) : Word :=
  ⟨t.kind, t.text⟩

/-- A number as formulas spell it: digits of ASCII, and a point with more digits if there are any
places. -/
structure NumberWord where
  whole : List Char
  places : List Char
  whole_ne_nil : whole ≠ []
  isDigit_whole : ∀ c ∈ whole, c.isDigit
  isDigit_places : ∀ c ∈ places, c.isDigit

namespace NumberWord

/-- The characters of a number. -/
def chars (n : NumberWord) : List Char :=
  n.whole ++ if n.places = [] then [] else '.' :: n.places

/-- The text of a number. -/
def text (n : NumberWord) : String :=
  String.ofList n.chars

/-- The decimal that a number is written for. Its exponent shows how many places there are. -/
def value (n : NumberWord) : Decimal :=
  Decimal.raiseZero ⟨false, Numeral.value (n.whole ++ n.places), -n.places.length⟩

end NumberWord

/-! ## Trees -/

/-- The tree of a formula. -/
inductive Expr
  | number (n : NumberWord)
  | cell (name : String)
  | call (f : UnaryFunction) (operand : Expr)
  | binary (op : BinaryOperator) (left right : Expr)

namespace Expr

/-- The words of a tree in postorder: the words of all operands come before that of their function
or operator. -/
def postorder : Expr → List Word
  | number n => [⟨.number, n.text⟩]
  | cell name => [⟨.cell, name⟩]
  | call f a => a.postorder ++ [⟨.function, f.symbol⟩]
  | binary op l r => l.postorder ++ r.postorder ++ [⟨.operator, op.symbol⟩]

/-! ## Meaning -/

/-- A result of arithmetic, for which `outOfRange` is the error if there is none. -/
def withinRange (outOfRange : Error) (r : Except Error Number) : Except Error Value :=
  match r with
  | .ok n => .ok (.number n)
  | .error (.arithmetic _) => .error outOfRange
  | .error e => .error e

/-- The value of a tree. Operands are evaluated from left to right and only then become numbers,
the left one first; the first error is the error of the tree. A tree that is but one cell has the
value of the cell, be it a number or a text, unless this is a text with a comma. -/
def eval (resolve : String → Traced Value) : Expr → Traced Value
  | number n => pure (.decimal n.value)
  | cell name => do
    match ← resolve name with
    | .text s => if ',' ∈ s.toList then .fail (.commaInCell name) else pure (.text s)
    | v => pure v
  | call f a => do
    let v ← a.eval resolve
    let x ← v.toNumber
    withinRange (.functionOutOfRange f.symbol x) (f.apply x)
  | binary op l r => do
    let v ← l.eval resolve
    let w ← r.eval resolve
    let x ← v.toNumber
    let y ← w.toNumber
    withinRange (.operatorOutOfRange op.symbol x y) (op.apply x y)

end Expr

/-! ## Instructions -/

/-- The words of which formulas in postorder consist: numbers, cells of any name, and the functions
and operators that there are. -/
inductive Word.IsInstruction : Word → Prop
  | number (n : NumberWord) : IsInstruction ⟨.number, n.text⟩
  | cell (name : String) : IsInstruction ⟨.cell, name⟩
  | function (f : UnaryFunction) : IsInstruction ⟨.function, f.symbol⟩
  | operator (op : BinaryOperator) : IsInstruction ⟨.operator, op.symbol⟩

theorem Expr.isInstruction_of_mem (e : Expr) {w : Word} (h : w ∈ e.postorder) :
    w.IsInstruction := by
  induction e with
  | number n =>
    obtain rfl := List.mem_singleton.1 h
    exact .number n
  | cell name =>
    obtain rfl := List.mem_singleton.1 h
    exact .cell name
  | call f a ih =>
    obtain h | h := List.mem_append.1 h
    · exact ih h
    · obtain rfl := List.mem_singleton.1 h
      exact .function f
  | binary op l r ihl ihr =>
    obtain h | h := List.mem_append.1 h
    · exact (List.mem_append.1 h).elim ihl ihr
    · obtain rfl := List.mem_singleton.1 h
      exact .operator op

end Spreadsheet
