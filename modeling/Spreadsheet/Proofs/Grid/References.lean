import Mathlib.Logic.Relation
import Spreadsheet.Grid
import Spreadsheet.Proofs.Formula.Cells
import Spreadsheet.Proofs.Formula.Lookups
import Spreadsheet.Proofs.Formula.Operands

/-!
# References between cells

The value of a cell is found by following the references in its text. What one step of this does is
said once: how it has a value, how it fails with a path, and when it does not depend on the length
that chains may have.

## Main definitions

* `Grid.RefersTo` — the references between the cells of a grid.
* `Grid.HasCell` — the names of the cells of a grid.
* `Grid.Breaks` — the descents along references that end in an error with a path.

## Main statements

* `Grid.chain_induction` — the three cases of a cell below a chain.
* `Grid.references_have_values` — a cell with a value is in the grid, and so is what it refers to.
* `Grid.breaks_of_error` — the descent behind an error with a path.
* `Grid.resolveBelow_eq_of_settled` — greater lengths change no settled outcome.
-/

namespace Spreadsheet

variable {resolve resolve' : String → Traced Value} {text n : String} {v : Value} {e : Error}

theorem CellName.split_eq_error (h : split n = .error e) :
    e.IsLocal ∨ ∃ count, Text.digitLimit < count ∧ e = .tooManyDigits count := by
  cases splits_iff.2 h with
  | invalid | outOfRange => exact .inl ⟨rfl, rfl⟩
  | tooMany _ _ hcount => exact .inr ⟨_, hcount, rfl⟩

/-! ## What texts refer to -/

/-- Whether a text refers to a cell: it is a reference to the cell, or a formula with the cell among
its tokens. -/
def Refers (text n : String) : Prop :=
  CellName.aliasTarget? text = some n ∨
    ∃ body ts, text.toList = '=' :: body ∧ tokenize (String.ofList body) = .ok ts ∧
      ∃ t ∈ ts, t.kind = .cell ∧ t.text = n

theorem Refers.upper_eq_self (h : Refers text n) : Text.upper n = n := by
  obtain h | ⟨body, ts, -, hts, t, ht, hkind, rfl⟩ := h
  · exact CellName.upper_eq_self_of_aliasTarget? h
  · exact upper_eq_self_of_tokenize hts ht hkind

theorem Refers.head?_eq (h : Refers text n) : text.toList.head? = some '=' := by
  obtain h | ⟨body, ts, htext, -⟩ := h
  · obtain ⟨letters, digits, final, htext, -⟩ := CellName.aliasTarget?_eq_some h
    rw [htext]
    rfl
  · rw [htext]
    rfl

namespace Entry

/-- The value of a cell, given the values of the cells that it refers to. -/
def eval (resolve : String → Traced Value) : Entry → Traced Value
  | empty => pure .zero
  | literal v => pure v
  | reference target => resolve target
  | formula body => do
    let tokens ← postorder body
    Machine.run resolve tokens

/-- The cells whose values are needed for the value of a cell. -/
inductive Needs : Entry → String → Prop
  | reference (target : String) : Needs (reference target) target
  | formula {body : String} {ts : List Token} {t : Token} (hts : tokenize body = .ok ts)
      (ht : t ∈ ts) (hkind : t.kind = .cell) : Needs (formula body) t.text

theorem Needs.refers (h : (ofText text).Needs n) : Refers text n := by
  unfold ofText at h
  split at h
  · cases h
  next body htext =>
    split at h
    next target htarget =>
      cases h
      exact .inl htarget
    next =>
      cases h with
      | formula hts ht hkind => exact .inr ⟨body, _, htext, hts, _, ht, hkind, rfl⟩
  · cases h

theorem ofText_of_equals {body : List Char} (h : text.toList = '=' :: body) :
    ofText text =
      match CellName.aliasTarget? text with
      | some target => reference target
      | none => formula (String.ofList body) := by
  unfold ofText
  split
  next hnil => cases h.symm.trans hnil
  next body' hbody =>
    cases h.symm.trans hbody
    cases CellName.aliasTarget? text <;> rfl
  next hnot => exact absurd h (hnot body)

/-- What a text refers to is needed for its value, if references lead to cells. -/
theorem needs_of_refers (h : Refers text n) (htarget : ∀ target, ofText text = reference target →
    ∃ position, CellName.split target = .ok position) : (ofText text).Needs n := by
  obtain ⟨body, htext⟩ := List.head?_eq_some_iff.1 h.head?_eq
  rw [ofText_of_equals htext] at htarget ⊢
  split
  next target halias =>
    rw [halias] at htarget
    obtain h | ⟨body', ts, htext', hts, t, ht, hkind, rfl⟩ := h
    · rw [h] at halias
      cases halias
      exact .reference n
    · obtain ⟨position, hposition⟩ := htarget target rfl
      rw [text_eq_of_aliasTarget? halias hposition htext' hts ht hkind]
      exact .reference target
  next hnone =>
    obtain h | ⟨body', ts, htext', hts, t, ht, hkind, rfl⟩ := h
    · rw [h] at hnone
      cases hnone
    · obtain rfl := List.tail_eq_of_cons_eq (htext ▸ htext')
      exact .formula hts ht hkind

variable {entry : Entry}

theorem exists_needs_of_eval_error (h : (entry.eval resolve).outcome = .error e)
    (he : e.path? ≠ none) : ∃ n, entry.Needs n ∧ (resolve n).outcome = .error e := by
  cases entry with
  | empty => cases h
  | literal v => cases h
  | reference target => exact ⟨target, .reference target, h⟩
  | formula body =>
    obtain h | ⟨ps, hps, h⟩ := Traced.bind_outcome_eq_error.1 h
    · exact absurd (pathless_postorder body e h) he
    · obtain ⟨ts, hts, hpost⟩ := exists_tokens_of_postorder hps
      obtain ⟨t, ht, hkind, hlookup⟩ := Machine.exists_lookup_of_run_error h he
      exact ⟨t.text, .formula hts ((mem_toPostorder_of_cell hpost hkind).1 ht) hkind, hlookup⟩

theorem exists_value_of_eval (h : (entry.eval resolve).outcome = .ok v) (hn : entry.Needs n) :
    ∃ w, (resolve n).outcome = .ok w := by
  cases hn with
  | reference target => exact ⟨v, h⟩
  | formula hts ht hkind =>
    obtain ⟨ps, hps, h⟩ := Traced.bind_outcome_eq_ok.1 h
    obtain ⟨ts, hts', hpost⟩ := exists_tokens_of_postorder hps
    rw [hts] at hts'
    cases hts'
    exact Machine.exists_value_of_run h ((mem_toPostorder_of_cell hpost hkind).2 ht) hkind

/-- The value of a cell depends only on the values that are needed for it. -/
theorem eval_congr (h : ∀ n, entry.Needs n → resolve' n = resolve n) :
    entry.eval resolve' = entry.eval resolve := by
  cases entry with
  | empty | literal v => rfl
  | reference target => exact h target (.reference target)
  | formula body =>
    refine Traced.bind_congr_of_outcome fun ps hps => Machine.run_congr fun t ht hkind => ?_
    obtain ⟨ts, hts, hpost⟩ := exists_tokens_of_postorder hps
    exact h t.text (.formula hts ((mem_toPostorder_of_cell hpost hkind).1 ht) hkind)

theorem outcome_eval_congr (h : ∀ n, entry.Needs n → (resolve' n).outcome = (resolve n).outcome) :
    (entry.eval resolve').outcome = (entry.eval resolve).outcome := by
  cases entry with
  | empty | literal v => rfl
  | reference target => exact h target (.reference target)
  | formula body =>
    rw [eval, eval, Traced.outcome_bind, Traced.outcome_bind]
    cases hps : postorder body with
    | error e => rfl
    | ok ps =>
      obtain ⟨ts, hts, hpost⟩ := exists_tokens_of_postorder hps
      exact Machine.outcome_run_congr fun t ht hkind =>
        h t.text (.formula hts ((mem_toPostorder_of_cell hpost hkind).1 ht) hkind)

theorem eval_eq_of_settled (hr : ∀ name, (resolve name).Settled → resolve' name = resolve name)
    (h : (entry.eval resolve).Settled) : entry.eval resolve' = entry.eval resolve := by
  cases entry with
  | empty | literal v => rfl
  | reference target => exact hr target h
  | formula body =>
    exact Traced.bind_eq_of_settled (fun _ => rfl) (fun ps => Machine.run_eq_of_settled hr) h

end Entry

/-! ## Grids -/

namespace Grid

open Relation (ReflTransGen)

variable {g : Grid} {limit limit' : Int} {more more' : Nat} {visited : List String}
  {name m n : String}

/-- Whether a cell of a grid refers to another one. -/
def RefersTo (g : Grid) (m n : String) : Prop :=
  ∃ text, g.text? m = some text ∧ Refers text n

/-- Whether a name is that of a cell in the grid. -/
def HasCell (g : Grid) (name : String) : Prop :=
  ∃ row column : Nat, CellName.split name = .ok (row, column) ∧
    1 ≤ (row : Int) ∧ row ≤ g.rows ∧ 1 ≤ (column : Int) ∧ column ≤ g.columns

theorem checkName_eq_ok : g.checkName name = .ok () ↔ g.HasCell name := by
  unfold checkName HasCell
  cases CellName.split name with
  | error e => simp [bind, Except.bind]
  | ok position =>
    obtain ⟨row, column⟩ := position
    simp [bind, Except.bind, holds, and_assoc]

theorem checkName_eq_error (h : g.checkName name = .error e) :
    e.IsLocal ∨ ∃ count, Text.digitLimit < count ∧ e = .tooManyDigits count := by
  unfold checkName at h
  cases hsplit : CellName.split name with
  | error e' =>
    rw [hsplit] at h
    obtain rfl := Except.error.inj h
    exact CellName.split_eq_error hsplit
  | ok position =>
    rw [hsplit] at h
    dsimp only [bind, Except.bind] at h
    split at h
    · cases h
    · cases h
      exact .inl ⟨rfl, rfl⟩

theorem pathless_checkName (g : Grid) (name : String) : Pathless (g.checkName name) := by
  intro e he
  obtain hlocal | ⟨count, -, rfl⟩ := checkName_eq_error he
  · exact hlocal.2
  · rfl

/-! ## One step -/

theorem resolveBelow_of_mem (h : Text.upper name ∈ visited) :
    g.resolveBelow limit more visited name = .fail (.cycle (visited ++ [Text.upper name])) := by
  cases more <;> simp [resolveBelow, h]

theorem resolveBelow_zero (h : Text.upper name ∉ visited) :
    g.resolveBelow limit 0 visited name =
      .fail (.chainTooLong (visited ++ [Text.upper name]) limit) := by
  simp [resolveBelow, h]

theorem resolveBelow_succ (h : Text.upper name ∉ visited) :
    g.resolveBelow limit (more + 1) visited name =
      Traced.ofExcept (g.checkName (Text.upper name)) >>= fun _ =>
        Traced.lookup (Text.upper name) (.ok (g.entry (Text.upper name))) >>=
          Entry.eval (g.resolveBelow limit more (visited ++ [Text.upper name])) := by
  have hcontains : visited.contains (Text.upper name) = false := by simpa using h
  rw [resolveBelow]
  simp only [hcontains]
  rw [if_neg (by simp)]
  refine bind_congr fun _ => bind_congr fun entry => ?_
  cases entry <;> rfl

/-- What holds of every cell holds below every chain: the cell closes a cycle, or the chain may not grow
any more, or the cell is looked up, and what is below it goes on from the chain that it extends. -/
@[elab_as_elim]
theorem chain_induction {motive : Nat → List String → String → Prop}
    (cycle : ∀ {more visited name}, Text.upper name ∈ visited → motive more visited name)
    (tooLong : ∀ {visited name}, Text.upper name ∉ visited → motive 0 visited name)
    (below : ∀ {more visited name}, Text.upper name ∉ visited →
      (∀ n, motive more (visited ++ [Text.upper name]) n) → motive (more + 1) visited name)
    (more : Nat) (visited : List String) (name : String) : motive more visited name := by
  induction more generalizing visited name with
  | zero =>
    by_cases hmem : Text.upper name ∈ visited
    · exact cycle hmem
    · exact tooLong hmem
  | succ more ih =>
    by_cases hmem : Text.upper name ∈ visited
    · exact cycle hmem
    · exact below hmem (ih (visited ++ [Text.upper name]))

theorem entry_of_text? {text : String} (h : g.text? m = some text) : g.entry m = .ofText text := by
  rw [entry, h]
  rfl

/-- The cell of a name is that of the name in upper case. -/
theorem text?_ofTexts_upper (rows columns : Int) (texts : CellTexts) (name : String) :
    (ofTexts rows columns texts).text? (Text.upper name) = texts.get? (Text.upper name) :=
  congrArg texts.get? (Text.upper_upper name)

theorem refersTo_of_needs (h : (g.entry m).Needs n) : g.RefersTo m n := by
  unfold entry at h
  cases htext : g.text? m with
  | none =>
    rw [htext] at h
    cases h
  | some text =>
    rw [htext] at h
    exact ⟨text, htext, h.refers⟩

theorem needs_of_refersTo (h : g.RefersTo m n) (htarget : ∀ target, g.entry m = .reference target →
    ∃ position, CellName.split target = .ok position) : (g.entry m).Needs n := by
  obtain ⟨text, htext, h⟩ := h
  rw [entry_of_text? htext] at htarget ⊢
  exact Entry.needs_of_refers h htarget

theorem upper_eq_self_of_refersTo (h : g.RefersTo m n) : Text.upper n = n := by
  obtain ⟨text, -, htext⟩ := h
  exact htext.upper_eq_self

theorem upper_eq_self_of_reaches (hm : Text.upper m = m) (h : ReflTransGen g.RefersTo m n) :
    Text.upper n = n := by
  induction h with
  | refl => exact hm
  | tail _ hlast _ => exact upper_eq_self_of_refersTo hlast

/-- What is reached from a cell that another one needs is reached from that one too. -/
theorem reaches_of_needs {k : String} (hn : (g.entry m).Needs n)
    (hk : ReflTransGen g.RefersTo (Text.upper n) k) : ReflTransGen g.RefersTo m k := by
  have hrefers : g.RefersTo m n := refersTo_of_needs hn
  rw [upper_eq_self_of_refersTo hrefers] at hk
  exact .head hrefers hk

/-! ## Values -/

theorem eval_of_value (h : (g.resolveBelow limit more visited name).outcome = .ok v) :
    Text.upper name ∉ visited ∧ g.HasCell (Text.upper name) ∧ ∃ fuel, more = fuel + 1 ∧
      ((g.entry (Text.upper name)).eval
        (g.resolveBelow limit fuel (visited ++ [Text.upper name]))).outcome = .ok v := by
  by_cases hmem : Text.upper name ∈ visited
  · rw [resolveBelow_of_mem hmem] at h
    cases h
  cases more with
  | zero =>
    rw [resolveBelow_zero hmem] at h
    cases h
  | succ fuel =>
    rw [resolveBelow_succ hmem] at h
    obtain ⟨_, hcheck, h⟩ := Traced.bind_outcome_eq_ok.1 h
    obtain ⟨entry, hentry, h⟩ := Traced.bind_outcome_eq_ok.1 h
    cases hentry
    exact ⟨hmem, checkName_eq_ok.1 hcheck, fuel, rfl, h⟩

/-- A cell with a value is in the grid and not in its own chain, and the cells to which it refers
have values below it. -/
theorem references_have_values (h : (g.resolveBelow limit more visited name).outcome = .ok v) :
    Text.upper name ∉ visited ∧ g.HasCell (Text.upper name) ∧ ∃ fuel, more = fuel + 1 ∧
      ∀ n, g.RefersTo (Text.upper name) n →
        ∃ w, (g.resolveBelow limit fuel (visited ++ [Text.upper name]) n).outcome = .ok w := by
  obtain ⟨hmem, hcell, fuel, rfl, heval⟩ := eval_of_value h
  refine ⟨hmem, hcell, fuel, rfl, fun n hn => ?_⟩
  refine Entry.exists_value_of_eval heval (needs_of_refersTo hn fun target htarget => ?_)
  rw [htarget] at heval
  obtain ⟨-, ⟨row, column, hsplit, -⟩, -⟩ := eval_of_value heval
  have hupper : Text.upper target = target :=
    upper_eq_self_of_refersTo (refersTo_of_needs (htarget ▸ Entry.Needs.reference target))
  rw [hupper] at hsplit
  exact ⟨_, hsplit⟩

/-! ## Errors -/

/-- The descents from a cell below a chain that end in an error with a path: at a cell of the chain,
or where the chain may not grow. Between cells they follow references. -/
inductive Breaks (g : Grid) (limit : Int) : Nat → List String → String → Error → Prop
  | cycle {more : Nat} {visited : List String} {name : String} (h : Text.upper name ∈ visited) :
      Breaks g limit more visited name (.cycle (visited ++ [Text.upper name]))
  | tooLong {visited : List String} {name : String} (h : Text.upper name ∉ visited) :
      Breaks g limit 0 visited name (.chainTooLong (visited ++ [Text.upper name]) limit)
  | link {more : Nat} {visited : List String} {name n : String} {e : Error}
      (h : Text.upper name ∉ visited) (hcell : g.HasCell (Text.upper name))
      (hn : g.RefersTo (Text.upper name) n)
      (hbelow : Breaks g limit more (visited ++ [Text.upper name]) n e) :
      Breaks g limit (more + 1) visited name e

/-- An error with a path is reached along references. -/
theorem breaks_of_error (h : (g.resolveBelow limit more visited name).outcome = .error e)
    (he : e.path? ≠ none) : g.Breaks limit more visited name e := by
  induction more, visited, name using chain_induction with
  | cycle hmem =>
    rw [resolveBelow_of_mem hmem] at h
    cases h
    exact .cycle hmem
  | tooLong hmem =>
    rw [resolveBelow_zero hmem] at h
    cases h
    exact .tooLong hmem
  | below hmem ih =>
    rw [resolveBelow_succ hmem] at h
    obtain h | ⟨_, hcheck, h⟩ := Traced.bind_outcome_eq_error.1 h
    · exact absurd (pathless_checkName g _ e h) he
    obtain h | ⟨entry, hentry, h⟩ := Traced.bind_outcome_eq_error.1 h
    · cases h
    cases hentry
    obtain ⟨n, hneeds, hn⟩ := Entry.exists_needs_of_eval_error h he
    exact .link hmem (checkName_eq_ok.1 hcheck) (refersTo_of_needs hneeds) (ih n hn)

/-! ## Lengths of chains -/

/-- What is settled while the chain may grow by some number of cells is the same, lookups and all,
if it may grow by more. -/
theorem resolveBelow_eq_of_settled (h : (g.resolveBelow limit more visited name).Settled)
    (hmore : more ≤ more') :
    g.resolveBelow limit' more' visited name = g.resolveBelow limit more visited name := by
  induction more, visited, name using chain_induction generalizing more' with
  | cycle hmem => rw [resolveBelow_of_mem hmem, resolveBelow_of_mem hmem]
  | tooLong hmem =>
    rw [resolveBelow_zero hmem] at h
    exact absurd rfl (h _ _)
  | @below more visited name hmem ih =>
    obtain ⟨more', rfl⟩ := Nat.exists_eq_add_of_le' (Nat.le_trans (Nat.le_add_left 1 more) hmore)
    rw [resolveBelow_succ hmem] at h ⊢
    rw [resolveBelow_succ hmem]
    have hbelow : ∀ n, (g.resolveBelow limit more (visited ++ [Text.upper name]) n).Settled →
        g.resolveBelow limit' more' (visited ++ [Text.upper name]) n =
          g.resolveBelow limit more (visited ++ [Text.upper name]) n :=
      fun n hn => ih n hn (by omega)
    refine Traced.bind_eq_of_settled (fun _ => rfl) (fun _ h => ?_) h
    exact Traced.bind_eq_of_settled (fun _ => rfl) (fun _ => Entry.eval_eq_of_settled hbelow) h

end Grid

end Spreadsheet
