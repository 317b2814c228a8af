import Spreadsheet.Formula.Postorder
import Spreadsheet.Proofs.Formula.Traced

/-!
# How tokens are put into postorder

The conversions that succeed, as a relation between the tokens that wait, those to come and the
postorder. It has one case for each thing that a token can do, so that what holds of every postorder
is shown case by case.

## Main definitions

* `Converts` — the conversions that succeed.

## Main statements

* `converts_of_postorderFrom` — every postorder is the result of a conversion.
-/

namespace Spreadsheet

variable {stack leaving rest ts out : List Token} {t : Token}

/-- How tokens are put into postorder while others wait, the last to come first. -/
inductive Converts : List Token → List Token → List Token → Prop
  /-- At the end everything that waits leaves, and no group is open. -/
  | ended {stack : List Token} (h : ∀ t ∈ stack, t.kind ≠ .openParen) : Converts stack [] stack
  /-- An operand leaves at once. -/
  | operand {stack ts out : List Token} {t : Token} (ht : t.isOperand)
    (h : Converts stack ts out) : Converts stack (t :: ts) (t :: out)
  /-- A function waits below the parenthesis that opens its group. -/
  | opening {stack ts out : List Token} {t : Token} (ht : t.kind = .function ∨ t.kind = .openParen)
    (h : Converts (t :: stack) ts out) : Converts stack (t :: ts) out
  /-- An operator waits, and those that bind as tightly leave. -/
  | operator {gone left ts out : List Token} {t : Token} (ht : t.kind = .operator)
    (hgone : ∀ u ∈ gone, yieldsTo t u) (hleft : ∀ u ∈ left.head?, yieldsTo t u = false)
    (h : Converts (t :: left) ts out) : Converts (gone ++ left) (t :: ts) (gone ++ out)
  /-- What waits in a group leaves when the group ends. -/
  | group {inner below ts out : List Token} {t o : Token} (ht : t.kind = .closeParen)
    (hinner : ∀ u ∈ inner, u.kind ≠ .openParen) (ho : o.kind = .openParen)
    (hbelow : ∀ u ∈ below.head?, u.kind ≠ .function) (h : Converts below ts out) :
    Converts (inner ++ o :: below) (t :: ts) (inner ++ out)
  /-- A function leaves after its group. -/
  | call {inner below ts out : List Token} {t o f : Token} (ht : t.kind = .closeParen)
    (hinner : ∀ u ∈ inner, u.kind ≠ .openParen) (ho : o.kind = .openParen)
    (hf : f.kind = .function) (h : Converts below ts out) :
    Converts (inner ++ o :: f :: below) (t :: ts) (inner ++ f :: out)

/-- A group is closed at the last opening parenthesis that waits. What waits above it leaves, and the
function below it, if there is one. -/
theorem exists_of_closeGroup? (h : closeGroup? stack = some (leaving, rest)) :
    ∃ inner o below, stack = inner ++ o :: below ∧ (∀ u ∈ inner, u.kind ≠ .openParen) ∧
      o.kind = .openParen ∧
      (leaving = inner ∧ rest = below ∧ (∀ u ∈ below.head?, u.kind ≠ .function) ∨
        ∃ f, below = f :: rest ∧ f.kind = .function ∧ leaving = inner ++ [f]) := by
  have hinner : ∀ u ∈ stack.takeWhile (·.kind ≠ .openParen), u.kind ≠ .openParen := fun u hu => by
    simpa using List.all_eq_true.1 List.all_takeWhile u hu
  have hstack := List.takeWhile_append_dropWhile (p := (·.kind ≠ .openParen)) (l := stack)
  have hopen : ∀ o below, stack.dropWhile (·.kind ≠ .openParen) = o :: below →
      o.kind = .openParen := fun o below hdrop => by
    have hhead := List.head?_dropWhile_not (p := (·.kind ≠ .openParen)) (l := stack)
    rw [hdrop] at hhead
    simpa using hhead
  unfold closeGroup? at h
  dsimp only at h
  generalize stack.takeWhile (·.kind ≠ .openParen) = inner at hinner hstack h
  generalize stack.dropWhile (·.kind ≠ .openParen) = outer at hopen hstack h
  subst hstack
  split at h
  next => cases h
  next o f below =>
    have ho := hopen o _ rfl
    split at h
    next hf =>
      obtain ⟨rfl, rfl⟩ := Prod.mk.inj (Option.some.inj h)
      exact ⟨inner, o, _, rfl, hinner, ho, .inr ⟨f, rfl, hf, rfl⟩⟩
    next hf =>
      obtain ⟨rfl, rfl⟩ := Prod.mk.inj (Option.some.inj h)
      exact ⟨_, o, _, rfl, hinner, ho, .inl ⟨rfl, rfl, by simpa using hf⟩⟩
  next o =>
    obtain ⟨rfl, rfl⟩ := Prod.mk.inj (Option.some.inj h)
    exact ⟨_, o, _, rfl, hinner, hopen o [] rfl, .inl ⟨rfl, rfl, by simp⟩⟩

theorem Converts.closing (ht : t.kind = .closeParen)
    (hgroup : closeGroup? stack = some (leaving, rest)) (h : Converts rest ts out) :
    Converts stack (t :: ts) (leaving ++ out) := by
  obtain ⟨inner, o, below, rfl, hinner, ho, ⟨rfl, rfl, hbelow⟩ | ⟨f, rfl, hf, rfl⟩⟩ :=
    exists_of_closeGroup? hgroup
  · exact .group ht hinner ho hbelow h
  · rw [List.append_assoc]
    exact .call ht hinner ho hf h

/-- Every postorder is the result of a conversion. -/
theorem converts_of_postorderFrom (h : postorderFrom stack ts = .ok out) :
    Converts stack ts out := by
  induction ts generalizing stack out with
  | nil =>
    unfold postorderFrom drain at h
    split at h
    · cases h
    next hnone =>
      obtain rfl := Except.ok.inj h
      exact .ended fun t ht => by simpa using List.find?_eq_none.1 hnone t ht
  | cons t ts ih =>
    cases hkind : t.kind
    case number | cell =>
      simp only [postorderFrom, hkind] at h
      obtain ⟨later, hlater, rfl⟩ := exists_of_map_eq_ok h
      exact .operand (by simp [Token.isOperand, hkind]) (ih hlater)
    case function | openParen =>
      simp only [postorderFrom, hkind] at h
      exact .opening (by simp [hkind]) (ih h)
    case operator =>
      simp only [postorderFrom, hkind] at h
      obtain ⟨later, hlater, rfl⟩ := exists_of_map_eq_ok h
      have hleft : ∀ u ∈ (stack.dropWhile (yieldsTo t)).head?, yieldsTo t u = false := by
        intro u hu
        have hhead := List.head?_dropWhile_not (p := yieldsTo t) (l := stack)
        rw [hu] at hhead
        simpa using hhead
      have hgone : ∀ u ∈ stack.takeWhile (yieldsTo t), yieldsTo t u :=
        List.all_eq_true.1 List.all_takeWhile
      have hconverts := Converts.operator hkind hgone hleft (ih hlater)
      rwa [List.takeWhile_append_dropWhile] at hconverts
    case closeParen =>
      simp only [postorderFrom, hkind] at h
      split at h
      · cases h
      next leaving rest hgroup =>
        obtain ⟨later, hlater, rfl⟩ := exists_of_map_eq_ok h
        exact .closing hkind hgroup (ih hlater)

end Spreadsheet
