import Mathlib.Data.List.TakeWhile
import Spreadsheet.Proofs.Formula.Balance

/-!
# Parentheses that do not match

One stack holds the operators, functions and parentheses that wait. Operators bind, so they leave the
parentheses on it, and those on the stack are always the ones that are open in what has been read. So
a formula has no postorder if its parentheses do not match, and what is reported is the first one
that closes nothing or, if there is none, the last one that is never closed.

## Main definitions

* `NoneUnopened` — words in which nothing is closed before it is opened.
* `IsFirstUnopened`, `IsLastUnclosed` — the parentheses that are reported.
* `LeavesOpen` — the parentheses that are open at the end of tokens.
* `Verdict` — what the parentheses of tokens say about their postorder.

## Main statements

* `verdict_postorderFrom` — the parentheses that wait are those that are open.
* `toPostorder_mismatched_iff` — what is reported, and that it is reported exactly if the parentheses
  are not balanced.
-/

namespace Spreadsheet

variable {os stack pre before after ts us : List Token} {t o c op : Token}
  {r : Except Error (List Token)}

/-! ## Parentheses without a partner -/

/-- Whether no prefix of the words closes more parentheses than it opens. -/
def NoneUnopened (ws : List Word) : Prop :=
  ∀ us, us <+: ws → closed us ≤ opened us

/-- Whether a parenthesis behind some tokens is the first one to close more than has been opened. -/
structure IsFirstUnopened (before : List Token) (c : Token) : Prop where
  kind_eq : c.kind = .closeParen
  opened_lt : opened ((before ++ [c]).map Token.word) < closed ((before ++ [c]).map Token.word)
  noneUnopened : NoneUnopened (before.map Token.word)

/-- Whether a parenthesis before some tokens is never closed by them, unlike every later one. -/
structure IsLastUnclosed (o : Token) (after : List Token) : Prop where
  kind_eq : o.kind = .openParen
  noneUnopened : NoneUnopened (after.map Token.word)
  later_closed : ∀ (front : List Token) (p : Token) (rest : List Token), after = front ++ p :: rest →
    p.kind = .openParen → ∃ us, us <+: rest.map Token.word ∧ opened us < closed us

theorem Balanced.isFirstUnopened (h : Balanced (before.map Token.word)) (hc : c.kind = .closeParen) :
    IsFirstUnopened before c where
  kind_eq := hc
  opened_lt := by
    have hkind : c.word.kind = .closeParen := hc
    simp [h.closed_eq, hkind]
  noneUnopened := h.closed_le

theorem Balanced.isLastUnclosed (h : Balanced (after.map Token.word)) (ho : o.kind = .openParen) :
    IsLastUnclosed o after where
  kind_eq := ho
  noneUnopened := h.closed_le
  later_closed := by
    rintro front p rest rfl hp
    refine ⟨rest.map Token.word, List.prefix_rfl, ?_⟩
    have hkind : p.word.kind = .openParen := hp
    have hfront := h.closed_le (front.map Token.word) (by simp)
    have htotal := h.closed_eq
    simp only [List.map_append, List.map_cons, closed_append, opened_append, closed_cons, opened_cons,
      hkind] at htotal
    simp at htotal
    omega

/-! ## Open parentheses -/

/-- Whether the given parentheses, the last to come first, are those that are open at the end of some
tokens: what stands between them is balanced. -/
inductive LeavesOpen : List Token → List Token → Prop
  | balanced {ts : List Token} (h : Balanced (ts.map Token.word)) : LeavesOpen [] ts
  | behind {o : Token} {os front ts : List Token} (h : LeavesOpen os front)
    (ho : o.kind = .openParen) (hts : Balanced (ts.map Token.word)) :
    LeavesOpen (o :: os) (front ++ o :: ts)

namespace LeavesOpen

theorem append (h : LeavesOpen os ts) (hus : Balanced (us.map Token.word)) :
    LeavesOpen os (ts ++ us) := by
  cases h with
  | balanced h => exact .balanced (List.map_append ▸ h.append hus)
  | behind h ho hts =>
    rw [List.append_assoc]
    exact .behind h ho (List.map_append ▸ hts.append hus)

/-- Tokens that are no parentheses do not matter. -/
theorem concat (h : LeavesOpen os ts) (hopen : t.kind ≠ .openParen) (hclose : t.kind ≠ .closeParen) :
    LeavesOpen os (ts ++ [t]) :=
  h.append (Balanced.nil.cons hopen hclose)

theorem concat_openParen (h : LeavesOpen os ts) (ho : o.kind = .openParen) :
    LeavesOpen (o :: os) (ts ++ [o]) :=
  .behind h ho .nil

/-- What is closed is the last parenthesis that is open. -/
theorem concat_closeParen (h : LeavesOpen (o :: os) ts) (hc : c.kind = .closeParen) :
    LeavesOpen os (ts ++ [c]) := by
  cases h with
  | @behind _ _ front ts h ho hts =>
    rw [List.append_assoc, List.cons_append]
    apply h.append
    rw [List.map_cons, List.map_append]
    exact hts.enclose ho hc

theorem opened_eq (h : LeavesOpen os ts) :
    opened (ts.map Token.word) = closed (ts.map Token.word) + os.length := by
  induction h with
  | balanced h => simp [h.closed_eq]
  | @behind o _ _ _ _ ho hts ih =>
    have hkind : o.word.kind = .openParen := ho
    have htotal := hts.closed_eq
    simp [hkind]
    omega

theorem noneUnopened (h : LeavesOpen os ts) : NoneUnopened (ts.map Token.word) := by
  induction h with
  | balanced h => exact h.closed_le
  | @behind o _ front ts h ho hts ih =>
    have hkind : o.word.kind = .openParen := ho
    intro us hus
    rw [List.map_append, List.map_cons] at hus
    obtain ⟨rest, hrest⟩ := hus
    rcases List.append_eq_append_iff.1 hrest with ⟨vs, hfront, -⟩ | ⟨vs, rfl, hvs⟩
    · exact ih us (hfront ▸ List.prefix_append us vs)
    rcases List.prefix_cons_iff.1 (hvs ▸ List.prefix_append vs rest) with rfl | ⟨ws, rfl, hws⟩
    · simpa using ih _ List.prefix_rfl
    · have hfront := ih _ List.prefix_rfl
      have hws := hts.closed_le ws hws
      simp [hkind]
      omega

end LeavesOpen

/-! ## The stack -/

/-- Operators leave the parentheses on the stack. -/
theorem filter_dropWhile_yieldsTo (hstack : ∀ t ∈ stack, t.kind = .openParen → t.text = "(")
    (hop : 0 < rank op.text) :
    (stack.dropWhile (yieldsTo op)).filter (·.kind = .openParen) =
      stack.filter (·.kind = .openParen) := by
  have hnone : (stack.takeWhile (yieldsTo op)).filter (·.kind = .openParen) = [] := by
    rw [List.filter_eq_nil_iff]
    intro u hu
    have hyields : yieldsTo op u := List.all_eq_true.1 List.all_takeWhile u hu
    have htext := hstack u ((List.takeWhile_sublist _).subset hu)
    simpa using kind_ne_openParen_of_yieldsTo hop htext hyields
  conv_rhs => rw [← List.takeWhile_append_dropWhile (p := yieldsTo op) (l := stack)]
  rw [List.filter_append, hnone, List.nil_append]

/-- A group can be closed if a parenthesis waits, and then it is the last one that leaves. -/
theorem exists_closeGroup? (h : stack.filter (·.kind = .openParen) = o :: os) :
    ∃ leaving rest, closeGroup? stack = some (leaving, rest) ∧ rest ⊆ stack ∧
      rest.filter (·.kind = .openParen) = os := by
  obtain ⟨inner, below, rfl, hinner, ho, hbelow⟩ := List.filter_eq_cons_iff.1 h
  have hinner : ∀ u ∈ inner, u.kind ≠ .openParen := fun u hu => by simpa using hinner u hu
  have ho : o.kind = .openParen := by simpa using ho
  by_cases hfunction : ∃ f rest, below = f :: rest ∧ f.kind = .function
  · obtain ⟨f, rest, rfl, hf⟩ := hfunction
    refine ⟨_, _, closeGroup?_function rest hinner ho hf, fun u hu => by simp [hu], ?_⟩
    simpa [hf] using hbelow
  · refine ⟨_, _, closeGroup?_eq hinner ho ?_, fun u hu => by simp [hu], hbelow⟩
    intro f hf hkind
    obtain ⟨rest, rfl⟩ := List.head?_eq_some_iff.1 hf
    exact hfunction ⟨f, rest, rfl, hkind⟩

theorem closeGroup?_eq_none (h : stack.filter (·.kind = .openParen) = []) :
    closeGroup? stack = none := by
  have hdrop : stack.dropWhile (·.kind ≠ .openParen) = [] := by
    simpa [List.filter_eq_nil_iff, List.dropWhile_eq_nil_iff] using h
  rw [closeGroup?, hdrop]

/-! ## Verdicts -/

/-- What the parentheses of tokens say about their postorder: there is one if they are balanced, and
otherwise one of them is to blame. -/
inductive Verdict (ts : List Token) : Except Error (List Token) → Prop
  | balanced {out : List Token} (h : Balanced (ts.map Token.word)) : Verdict ts (.ok out)
  | unopened {before after : List Token} {c : Token} (hts : ts = before ++ c :: after)
    (hc : c.kind = .closeParen) (h : Balanced (before.map Token.word)) :
    Verdict ts (.error (.unexpectedParenthesis c.position))
  | unclosed {o : Token} {os : List Token} (h : LeavesOpen (o :: os) ts) :
    Verdict ts (.error (.unclosedParenthesis o.position))

theorem Verdict.map (h : Verdict ts r) (g : List Token → List Token) : Verdict ts (r.map g) := by
  cases h with
  | balanced h => exact .balanced h
  | unopened hts hc h => exact .unopened hts hc h
  | unclosed h => exact .unclosed h

/-- At the end the first parenthesis on the stack is the last one that is open. -/
theorem verdict_drain (h : LeavesOpen (stack.filter (·.kind = .openParen)) ts) :
    Verdict ts (drain stack) := by
  rw [drain, ← List.head?_filter]
  generalize stack.filter (·.kind = .openParen) = os at h
  cases h with
  | balanced h => exact .balanced h
  | behind h ho hts => exact .unclosed (.behind h ho hts)

/-- While tokens are read, the parentheses that wait are those that are open in what has been read. -/
theorem verdict_postorderFrom (hbinds : ∀ t ∈ ts, t.kind = .operator → 0 < rank t.text)
    (hopen : ∀ t ∈ stack ++ ts, t.kind = .openParen → t.text = "(")
    (h : LeavesOpen (stack.filter (·.kind = .openParen)) pre) :
    Verdict (pre ++ ts) (postorderFrom stack ts) := by
  induction ts generalizing stack pre with
  | nil =>
    rw [List.append_nil, postorderFrom]
    exact verdict_drain h
  | cons t ts ih =>
    obtain ⟨hbind, hbinds⟩ := List.forall_mem_cons.1 hbinds
    obtain ⟨hstack, hts⟩ := List.forall_mem_append.1 hopen
    obtain ⟨htext, hts⟩ := List.forall_mem_cons.1 hts
    have hpush : ∀ u ∈ (t :: stack) ++ ts, u.kind = .openParen → u.text = "(" :=
      List.forall_mem_append.2 ⟨List.forall_mem_cons.2 ⟨htext, hstack⟩, hts⟩
    rw [List.append_cons]
    cases hkind : t.kind with
    | number | cell =>
      rw [postorderFrom_operand (by simp [hkind])]
      exact (ih hbinds (List.forall_mem_append.2 ⟨hstack, hts⟩)
        (h.concat (by simp [hkind]) (by simp [hkind]))).map _
    | function =>
      rw [postorderFrom_push (.inl hkind)]
      apply ih hbinds hpush
      rw [List.filter_cons_of_neg (by simp [hkind])]
      exact h.concat (by simp [hkind]) (by simp [hkind])
    | openParen =>
      rw [postorderFrom_push (.inr hkind)]
      apply ih hbinds hpush
      rw [List.filter_cons_of_pos (by simp [hkind])]
      exact h.concat_openParen hkind
    | operator =>
      simp only [postorderFrom, hkind]
      apply Verdict.map
      have hleft : ∀ u ∈ (t :: stack.dropWhile (yieldsTo t)) ++ ts, u.kind = .openParen →
          u.text = "(" := by
        intro u hu
        apply hpush u
        grind [List.dropWhile_subset]
      apply ih hbinds hleft
      rw [List.filter_cons_of_neg (by simp [hkind]),
        filter_dropWhile_yieldsTo hstack (hbind hkind)]
      exact h.concat (by simp [hkind]) (by simp [hkind])
    | closeParen =>
      cases hfilter : stack.filter (·.kind = .openParen) with
      | nil =>
        simp only [postorderFrom, hkind, closeGroup?_eq_none hfilter]
        rw [hfilter] at h
        cases h with
        | balanced h => exact .unopened (List.append_cons pre t ts).symm hkind h
      | cons o os =>
        obtain ⟨leaving, rest, hgroup, hrest, hos⟩ := exists_closeGroup? hfilter
        rw [postorderFrom_close hkind hgroup]
        apply Verdict.map
        apply ih hbinds
          (List.forall_mem_append.2 ⟨fun u hu => hstack u (hrest hu), hts⟩)
        rw [hos]
        rw [hfilter] at h
        exact h.concat_closeParen hkind

/-! ## Formulas -/

/-- A formula has no postorder exactly if its parentheses are not balanced. What is reported is the
first parenthesis that closes more than has been opened, and if there is none, the last one that is
never closed. -/
theorem toPostorder_mismatched_iff (ts : List Token)
    (hbinds : ∀ t ∈ ts, t.kind = .operator → 0 < rank t.text)
    (hopen : ∀ t ∈ ts, t.kind = .openParen → t.text = "(") :
    ((∃ e, toPostorder ts = .error e ∧ e.category = .mismatchedParentheses) ↔
        ¬ Balanced (ts.map Token.word)) ∧
      ∀ e, toPostorder ts = .error e →
        (∃ before c after, ts = before ++ c :: after ∧ IsFirstUnopened before c ∧
            e = .unexpectedParenthesis c.position) ∨
          (NoneUnopened (ts.map Token.word) ∧
            ∃ before o after, ts = before ++ o :: after ∧ IsLastUnclosed o after ∧
              e = .unclosedParenthesis o.position) := by
  have hverdict : Verdict ([] ++ ts) (postorderFrom [] ts) :=
    verdict_postorderFrom hbinds hopen (LeavesOpen.balanced Balanced.nil)
  rw [List.nil_append, ← toPostorder] at hverdict
  generalize toPostorder ts = r at hverdict
  cases hverdict with
  | balanced h =>
    refine ⟨⟨?_, fun hnot => absurd h hnot⟩, ?_⟩
    · rintro ⟨e, he, -⟩
      cases he
    · intro e he
      cases he
  | unopened hts hc h =>
    have hfirst := h.isFirstUnopened hc
    refine ⟨⟨fun _ hbalanced => ?_, fun _ => ⟨_, rfl, rfl⟩⟩, fun e he => .inl ?_⟩
    · rw [hts, List.append_cons, List.map_append] at hbalanced
      exact absurd hfirst.opened_lt (Nat.not_lt.2 (hbalanced.closed_le _ (List.prefix_append _ _)))
    · exact ⟨_, _, _, hts, hfirst, (Except.error.inj he).symm⟩
  | unclosed h =>
    have hnone := h.noneUnopened
    refine ⟨⟨fun _ hbalanced => ?_, fun _ => ⟨_, rfl, rfl⟩⟩, fun e he => .inr ⟨hnone, ?_⟩⟩
    · have htotal := h.opened_eq
      rw [hbalanced.closed_eq] at htotal
      simp at htotal
    · cases h with
      | behind h ho hts =>
        exact ⟨_, _, _, rfl, hts.isLastUnclosed ho, (Except.error.inj he).symm⟩

/-- The second parenthesis of `+(1))(` that closes is the first to close too many. In `(-inc(()` the one
of the function is the last that stays open. -/
theorem toPostorder_mismatched_iff_malformed :
    (∃ before c after, [⟨.operator, "+", 0⟩, ⟨.openParen, "(", 1⟩, ⟨.number, "1", 2⟩,
        ⟨.closeParen, ")", 3⟩, ⟨.closeParen, ")", 4⟩, ⟨.openParen, "(", 5⟩] = before ++ c :: after ∧
      IsFirstUnopened before c ∧ c.position = 4) ∧
    (∃ before o after, [⟨.openParen, "(", 0⟩, ⟨.operator, "-", 1⟩, ⟨.function, "inc", 2⟩,
        ⟨.openParen, "(", 5⟩, ⟨.openParen, "(", 6⟩, ⟨.closeParen, ")", 7⟩] = before ++ o :: after ∧
      IsLastUnclosed o after ∧ o.position = 5) := by
  constructor
  · obtain ⟨-, hreport⟩ := toPostorder_mismatched_iff
      [⟨.operator, "+", 0⟩, ⟨.openParen, "(", 1⟩, ⟨.number, "1", 2⟩, ⟨.closeParen, ")", 3⟩,
        ⟨.closeParen, ")", 4⟩, ⟨.openParen, "(", 5⟩] (by decide) (by decide)
    have herror : toPostorder [⟨.operator, "+", 0⟩, ⟨.openParen, "(", 1⟩, ⟨.number, "1", 2⟩,
        ⟨.closeParen, ")", 3⟩, ⟨.closeParen, ")", 4⟩, ⟨.openParen, "(", 5⟩] =
        .error (.unexpectedParenthesis 4) := by decide
    rcases hreport _ herror with ⟨before, c, after, hts, hc, he⟩ | ⟨-, _, _, _, -, -, he⟩
    · exact ⟨before, c, after, hts, hc, (Error.unexpectedParenthesis.inj he).symm⟩
    · cases he
  · obtain ⟨-, hreport⟩ := toPostorder_mismatched_iff
      [⟨.openParen, "(", 0⟩, ⟨.operator, "-", 1⟩, ⟨.function, "inc", 2⟩, ⟨.openParen, "(", 5⟩,
        ⟨.openParen, "(", 6⟩, ⟨.closeParen, ")", 7⟩] (by decide) (by decide)
    have herror : toPostorder [⟨.openParen, "(", 0⟩, ⟨.operator, "-", 1⟩, ⟨.function, "inc", 2⟩,
        ⟨.openParen, "(", 5⟩, ⟨.openParen, "(", 6⟩, ⟨.closeParen, ")", 7⟩] =
        .error (.unclosedParenthesis 5) := by decide
    rcases hreport _ herror with ⟨_, _, _, -, -, he⟩ | ⟨-, before, o, after, hts, ho, he⟩
    · cases he
    · exact ⟨before, o, after, hts, ho, (Error.unclosedParenthesis.inj he).symm⟩

end Spreadsheet
