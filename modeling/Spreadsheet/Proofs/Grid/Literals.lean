import Spreadsheet.Proofs.Decimal.Notation
import Spreadsheet.Proofs.Formula.Results
import Spreadsheet.Proofs.Grid.Outcomes

/-!
# Values as literals

Every value of a cell can be stored as a literal, and is read again as the same value: a text is one
that was stored as such, or comes from a cell that it was stored in, and a number is written with
its coefficient and exponent. Only a number that is too large or too small for a literal is left
out. Zeros have no such limit in practice, since arithmetic keeps their exponents in range.

## Main definitions

* `Value.Storable` — texts that are read as texts, and decimals that are no zeros out of range.
* `Value.Literal` — the literals of values.

## Main statements

* `Grid.storable_of_value` — the values of cells are storable.
* `Value.Literal.ofText_eq` — the literal of a storable value is read as the value.
-/

namespace Spreadsheet

open Decimal

variable {resolve : String → Traced Value} {v : Value} {text : String} {d : Decimal}

/-! ## Storable values -/

/-- The values that have a literal, apart from numbers that are too large or too small for one:
texts that are read as texts, and decimals. -/
inductive Value.Storable : Value → Prop
  | text {s : String} (h : Entry.ofText s = .literal (.text s)) : Storable (.text s)
  | decimal {d : Decimal} (h : d.ZeroInRange) : Storable (.decimal d)

theorem Value.Storable.isFinite (h : v.Storable) : v.IsFinite := by
  cases h with
  | text h => exact .text _
  | decimal h => exact .number ⟨_, rfl⟩

/-- A run over cells with storable values ends with a storable value. -/
theorem Machine.storable_of_run {ts : List Token}
    (hr : ∀ name v, (resolve name).outcome = .ok v → v.Storable)
    (hts : ∀ t ∈ ts, t.word.IsInstruction) (h : (run resolve ts).outcome = .ok v) :
    v.Storable := by
  obtain ⟨e, he⟩ := exists_expr_of_run hts h
  rw [run_postorder he] at h
  cases e.gives_of_eval (fun name w hw => (hr name w hw).isFinite) h with
  | cell hv => exact hr _ v hv
  | decimal hzero => exact .decimal hzero

/-! ## Values of cells -/

namespace Entry

theorem storable_of_ofText (h : ofText text = literal v) : v.Storable := by
  have hvalue : Value.ofText text = v := by
    unfold ofText at h
    split at h
    · cases h
    · split at h <;> cases h
    · exact literal.inj h
  unfold Value.ofText at hvalue
  split at hvalue
  next d hd =>
    subst hvalue
    refine .decimal fun hzero => ?_
    simpa [hzero] using (Option.filter_eq_some_iff.1 hd).2
  next =>
    subst hvalue
    exact .text h

theorem storable_of_eval {entry : Entry} (hliteral : ∀ v, entry = literal v → v.Storable)
    (hr : ∀ name v, (resolve name).outcome = .ok v → v.Storable)
    (h : (entry.eval resolve).outcome = .ok v) : v.Storable := by
  cases entry with
  | empty =>
    obtain rfl := Except.ok.inj h
    exact .decimal (zeroInRange_integer _ _)
  | literal v =>
    obtain rfl := Except.ok.inj h
    exact hliteral v rfl
  | reference target => exact hr target v h
  | formula body =>
    obtain ⟨ts, hts, h⟩ := Traced.bind_outcome_eq_ok.1 h
    exact Machine.storable_of_run hr (isInstruction_of_postorder hts) h

end Entry

/-- The values of cells are storable. -/
theorem Grid.storable_of_value {g : Grid} {limit : Int} {more : Nat} {visited : List String}
    {name : String} (h : (g.resolveBelow limit more visited name).outcome = .ok v) :
    v.Storable := by
  induction more generalizing visited name v with
  | zero =>
    obtain ⟨-, -, fuel, hfuel, -⟩ := eval_of_value h
    cases hfuel
  | succ more ih =>
    obtain ⟨-, -, fuel, hfuel, heval⟩ := eval_of_value h
    obtain rfl : more = fuel := Nat.succ.inj hfuel
    refine Entry.storable_of_eval (fun v hv => ?_) (fun n w hw => ih hw) heval
    cases htext : g.text? (Text.upper name) with
    | none =>
      rw [entry, htext] at hv
      cases hv
    | some text => exact Entry.storable_of_ofText (entry_of_text? htext ▸ hv)

/-! ## Literals -/

/-- The literal of a value: a text itself, or the scientific form of a number, which must be in the
range of literals if it is not zero. -/
inductive Value.Literal : Value → String → Prop
  | text (s : String) : Literal (.text s) s
  | decimal (d : Decimal) (h : d.isZero ∨ -999999 ≤ d.adjusted ∧ d.adjusted ≤ 999999) :
    Literal (.decimal d) d.toScientific

theorem Entry.ofText_of_ofLiteral? (h : Decimal.ofLiteral? text = some d) :
    ofText text = literal (.decimal d) := by
  unfold ofText
  split
  next hnil =>
    rw [Decimal.ofLiteral?, hnil] at h
    cases h
  next body hbody =>
    rw [Decimal.ofLiteral?_of_equals hbody] at h
    cases h
  next => rw [Value.ofText, h]

/-- The literal of a storable value is read as the value. -/
theorem Value.Literal.ofText_eq (h : v.Literal text) (hv : v.Storable) :
    Entry.ofText text = .literal v := by
  cases h with
  | text s =>
    cases hv with
    | text hs => exact hs
  | decimal d hd =>
    cases hv with
    | decimal hzero =>
      refine Entry.ofText_of_ofLiteral? (Decimal.ofLiteral?_toScientific ?_)
      split
      next hz => exact hzero hz
      next hz =>
        obtain hd | hd := hd
        · exact absurd hd hz
        · rw [isNormal, Bool.and_eq_true, decide_eq_true_eq, decide_eq_true_eq]
          exact hd

end Spreadsheet
