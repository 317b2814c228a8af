import Spreadsheet.Proofs.Formula.Groups

/-!
# Balanced parentheses

Parentheses match if they can be counted: read from the left there are never more closed than opened
ones, and in the end there are as many. Words that are grouped are balanced, so a formula with a
postorder is.

## Main definitions

* `Balanced` — words whose parentheses match by count.

## Main statements

* `Balanced.append`, `Balanced.enclose` — how balanced words are put together.
* `balanced_of_toPostorder` — a formula with a postorder is balanced.
-/

namespace Spreadsheet

variable {us ws : List Word} {w : Word} {ts out : List Token}

/-! ## Counting -/

/-- The number of opening parentheses. -/
def opened (ws : List Word) : Nat :=
  ws.countP (·.kind = .openParen)

/-- The number of closing parentheses. -/
def closed (ws : List Word) : Nat :=
  ws.countP (·.kind = .closeParen)

@[simp] theorem opened_nil : opened [] = 0 :=
  rfl

@[simp] theorem closed_nil : closed [] = 0 :=
  rfl

@[simp] theorem opened_cons (w : Word) (ws : List Word) :
    opened (w :: ws) = opened ws + if w.kind = .openParen then 1 else 0 := by
  simp [opened, List.countP_cons]

@[simp] theorem closed_cons (w : Word) (ws : List Word) :
    closed (w :: ws) = closed ws + if w.kind = .closeParen then 1 else 0 := by
  simp [closed, List.countP_cons]

@[simp] theorem opened_append (us ws : List Word) : opened (us ++ ws) = opened us + opened ws :=
  List.countP_append

@[simp] theorem closed_append (us ws : List Word) : closed (us ++ ws) = closed us + closed ws :=
  List.countP_append

/-! ## Balanced words -/

/-- Words in which no parenthesis is closed before it is opened, and none is left open. -/
structure Balanced (ws : List Word) : Prop where
  closed_le : ∀ us, us <+: ws → closed us ≤ opened us
  closed_eq : closed ws = opened ws

namespace Balanced

theorem nil : Balanced [] where
  closed_le us hus := by rw [List.prefix_nil.1 hus]; exact Nat.le_refl _
  closed_eq := rfl

/-- Words that are no parentheses do not matter. -/
theorem cons (hopen : w.kind ≠ .openParen) (hclose : w.kind ≠ .closeParen) (h : Balanced ws) :
    Balanced (w :: ws) where
  closed_le us hus := by
    obtain rfl | ⟨rest, rfl, hrest⟩ := List.prefix_cons_iff.1 hus
    · exact Nat.le_refl _
    · simpa [hopen, hclose] using h.closed_le rest hrest
  closed_eq := by simpa [hopen, hclose] using h.closed_eq

theorem append (hus : Balanced us) (hws : Balanced ws) : Balanced (us ++ ws) where
  closed_le vs := by
    rintro ⟨rest, hrest⟩
    obtain ⟨middle, rfl, -⟩ | ⟨middle, rfl, rfl⟩ := List.append_eq_append_iff.1 hrest
    · exact hus.closed_le vs (List.prefix_append vs middle)
    · have hmiddle := hws.closed_le middle (List.prefix_append middle rest)
      have htotal := hus.closed_eq
      simp only [closed_append, opened_append]
      omega
  closed_eq := by rw [closed_append, opened_append, hus.closed_eq, hws.closed_eq]

/-- A group is balanced if what is between its parentheses is. -/
theorem enclose {o c : Word} (ho : o.kind = .openParen) (hc : c.kind = .closeParen)
    (h : Balanced us) : Balanced (o :: (us ++ [c])) where
  closed_le vs hvs := by
    obtain rfl | ⟨rest, rfl, hrest⟩ := List.prefix_cons_iff.1 hvs
    · exact Nat.le_refl _
    have hle : closed rest ≤ opened rest + 1 := by
      obtain rfl | hrest := List.prefix_concat_iff.1 hrest
      · simpa [hc] using Nat.le_of_eq h.closed_eq
      · exact Nat.le_succ_of_le (h.closed_le rest hrest)
    simpa [ho] using hle
  closed_eq := by simpa [ho, hc] using h.closed_eq

end Balanced

/-- Words in groups are balanced. -/
theorem Grouped.balanced (h : Grouped ws) : Balanced ws := by
  have henclose : ∀ us, Balanced us →
      Balanced (⟨.openParen, "("⟩ :: (us ++ [⟨.closeParen, ")"⟩])) := fun _ hus =>
    hus.enclose rfl rfl
  induction h with
  | nil => exact .nil
  | number n _ ih => exact ih.cons (by simp) (by simp)
  | cell c _ ih => exact ih.cons (by simp) (by simp)
  | operator op _ ih => exact ih.cons (by simp) (by simp)
  | group _ _ ihu ihw => simpa using (henclose _ ihu).append ihw
  | call f _ _ ihu ihw =>
    have hgroup := (henclose _ ihu).append ihw
    exact Balanced.cons (by simp) (by simp) (by simpa using hgroup)

/-- A formula with a postorder is balanced. -/
theorem balanced_of_toPostorder {formula : String} (hts : tokenize formula = .ok ts)
    (h : toPostorder ts = .ok out) : Balanced (ts.map Token.word) :=
  (grouped_of_toPostorder (fun _ ht => inGrammar_of_tokenize hts ht) (eq_of_tokenize hts).2 h).balanced

end Spreadsheet
