import Mathlib.Data.List.Chain
import Spreadsheet.Proofs.Formula.Postorder

/-!
# Operands and operators in turn

In a phrase of the grammar operands and operators take turns, if a group in parentheses counts as
one operand. This is all that the grammar asks for: ranks say how a phrase is read, but every
sequence of operands with operators between them is a phrase. So nowhere in a phrase does an operand
begin right behind another one.

## Main definitions

* `Alternates` — operands with an operator between any two of them.
* `Apart` — words among which no operand begins right behind another one.

## Main statements

* `Alternates.exists_phrase` — operands with operators between them are a phrase.
* `Phrase.apart_words` — the operands of a phrase are apart.
-/

namespace Spreadsheet

variable {level : Level} {us ws : List Word} {w : Word}

/-! ## Sequences that are phrases -/

/-- Operands with an operator between any two of them. -/
inductive Alternates : List Word → Prop
  | operand (p : Phrase .primary) : Alternates p.words
  | operator (p : Phrase .primary) (op : BinaryOperator) {ws : List Word} (h : Alternates ws) :
    Alternates (p.words ++ ⟨.operator, op.symbol⟩ :: ws)

/-- A primary as a phrase of any level. -/
def Phrase.lift (p : Phrase .primary) : (level : Level) → Phrase level
  | .comparison => .tighter (.tighter (.tighter p))
  | .sum => .tighter (.tighter p)
  | .product => .tighter p
  | .primary => p

theorem Phrase.words_lift (p : Phrase .primary) (level : Level) :
    (p.lift level).words = p.words := by
  cases level <;> rfl

theorem Level.rank_tighter_le {level' : Level} (h : level.rank ≤ level'.rank)
    (hne : level' ≠ level) :
    level.tighter.rank ≤ level'.rank := by
  revert h hne
  cases level <;> cases level' <;> decide

theorem BinaryOperator.rank_level_lt (op : BinaryOperator) :
    op.level.rank < Level.primary.rank := by
  cases op <;> decide

theorem Phrase.exists_snoc_of_level_eq {op : BinaryOperator} (h : op.level = level)
    (e : Phrase level) (p : Phrase .primary) :
    ∃ e' : Phrase level, e'.words = e.words ++ ⟨.operator, op.symbol⟩ :: p.words := by
  subst h
  exact ⟨.binary op e (p.lift _), by rw [Phrase.words, words_lift]⟩

/-- An operator and an operand go on with every phrase whose level is no tighter than the operator:
they go on with its last part of the level of the operator. -/
theorem Phrase.exists_snoc (e : Phrase level) (op : BinaryOperator) (p : Phrase .primary)
    (h : level.rank ≤ op.level.rank) :
    ∃ e' : Phrase level, e'.words = e.words ++ ⟨.operator, op.symbol⟩ :: p.words := by
  induction e with
  | number | cell | group | call => exact absurd op.rank_level_lt (by omega)
  | binary op' l r ihl ihr =>
    by_cases hlevel : op.level = op'.level
    · exact exists_snoc_of_level_eq hlevel (.binary op' l r) p
    · obtain ⟨r', hr'⟩ := ihr (Level.rank_tighter_le h hlevel)
      exact ⟨.binary op' l r', by simp [Phrase.words, hr']⟩
  | @tighter level e ih =>
    by_cases hlevel : op.level = level
    · exact exists_snoc_of_level_eq hlevel (.tighter e) p
    · obtain ⟨e', he'⟩ := ih (Level.rank_tighter_le h hlevel)
      exact ⟨.tighter e', he'⟩

theorem Alternates.exists_join (h : Alternates ws) (e : Phrase .comparison) (op : BinaryOperator) :
    ∃ e' : Phrase .comparison, e'.words = e.words ++ ⟨.operator, op.symbol⟩ :: ws := by
  have hloosest : ∀ op : BinaryOperator, Level.comparison.rank ≤ op.level.rank := by
    intro op
    cases op <;> decide
  induction h generalizing e op with
  | operand p => exact e.exists_snoc op p (hloosest op)
  | operator p op' h ih =>
    obtain ⟨e₁, he₁⟩ := e.exists_snoc op p (hloosest op)
    obtain ⟨e₂, he₂⟩ := ih e₁ op'
    exact ⟨e₂, by simp [he₂, he₁]⟩

/-- Operands with operators between them are a phrase. -/
theorem Alternates.exists_phrase (h : Alternates ws) : ∃ e : Phrase .comparison, e.words = ws := by
  obtain ⟨p⟩ | ⟨p, op, h⟩ := h
  · exact ⟨p.lift _, p.words_lift _⟩
  · obtain ⟨e, he⟩ := h.exists_join (p.lift _) op
    exact ⟨e, by rw [he, p.words_lift]⟩

/-! ## Operands that are apart -/

/-- The kinds of words that may end an operand. -/
def Token.Kind.endsOperand : Token.Kind → Bool
  | number | cell | closeParen => true
  | operator | function | openParen => false

/-- The kinds of words that begin an operand. -/
def Token.Kind.beginsOperand : Token.Kind → Bool
  | number | cell | function | openParen => true
  | operator | closeParen => false

/-- Whether no operand begins right behind another one. -/
def Apart (ws : List Word) : Prop :=
  ws.IsChain fun v w => ¬ (v.kind.endsOperand ∧ w.kind.beginsOperand)

instance : DecidablePred Apart := fun ws =>
  inferInstanceAs (Decidable (ws.IsChain _))

namespace Apart

theorem singleton (w : Word) : Apart [w] :=
  List.isChain_singleton w

theorem cons (hw : w.kind.endsOperand = false) (h : Apart ws) : Apart (w :: ws) :=
  List.IsChain.cons h fun _ _ hboth => by simp [hw] at hboth

theorem concat (h : Apart ws) (hw : w.kind.beginsOperand = false) : Apart (ws ++ [w]) :=
  List.IsChain.append h (.singleton w) fun v _ u hu hboth => by
    obtain rfl : w = u := by simpa using hu
    simp [hw] at hboth

theorem append (h : Apart us) (hends : w.kind.endsOperand = false)
    (hbegins : w.kind.beginsOperand = false) (h' : Apart ws) : Apart (us ++ w :: ws) :=
  List.IsChain.append h (h'.cons hends) fun v _ u hu hboth => by
    obtain rfl : w = u := by simpa using hu
    simp [hbegins] at hboth

theorem left (h : Apart (us ++ w :: ws)) : Apart us :=
  List.IsChain.left_of_append h

theorem right (h : Apart (us ++ w :: ws)) : Apart (w :: ws) :=
  List.IsChain.right_of_append h

theorem tail (h : Apart (w :: ws)) : Apart ws :=
  List.IsChain.tail h

/-- Behind an operand none begins. -/
theorem head (h : Apart (w :: ws)) (hw : w.kind.endsOperand) :
    ∀ v ∈ ws.head?, v.kind.beginsOperand = false := fun v hv => by
  simpa [hw] using (List.isChain_cons.1 h).1 v hv

end Apart

/-- The operands of a phrase are apart. -/
theorem Phrase.apart_words (e : Phrase level) : Apart e.words := by
  induction e with
  | number n => exact .singleton _
  | cell c => exact .singleton _
  | group e ih => exact (ih.concat rfl).cons rfl
  | call f e ih => exact ((ih.concat rfl).cons rfl).cons rfl
  | binary op l r ihl ihr => exact ihl.append rfl rfl ihr
  | tighter e ih => exact ih

end Spreadsheet
