import Spreadsheet.Proofs.Formula.Outcomes
import Spreadsheet.Proofs.Grid.References
import Spreadsheet.Sheet.Display

/-!
# How cells end

The value of a cell is a text or a finite number, and if a cell has none, the error is one of
formulas. This holds whatever texts the cells hold, since the texts are read by the rules for
literals and formulas only; it is carried from the cells that are referred to up to the cell. So a
grid can show every cell, be it a value or a marker.

## Main statements

* `Grid.regular_resolveBelow` — the outcome of a cell, below any chain.
* `Grid.regular_outcomes` — the outcomes of cells and expressions, and what is shown for them.
-/

namespace Spreadsheet

variable {resolve : String → Traced Value} {v : Value}

/-! ## Texts of cells -/

theorem Value.isFinite_zero : Value.zero.IsFinite :=
  .number ⟨_, rfl⟩

theorem Value.isFinite_ofText (text : String) : (Value.ofText text).IsFinite := by
  unfold ofText
  split
  · exact .number ⟨_, rfl⟩
  · exact .text text

namespace Entry

theorem isFinite_of_ofText {text : String} (h : ofText text = literal v) : v.IsFinite := by
  unfold ofText at h
  split at h
  · cases h
  · split at h <;> cases h
  · obtain rfl := literal.inj h
    exact Value.isFinite_ofText text

/-- The value of an entry is as good as the values of the cells that it refers to. -/
theorem regular_eval {entry : Entry} (hliteral : ∀ v, entry = literal v → v.IsFinite)
    (hr : ∀ name, Regular Value.IsFinite (resolve name).outcome) :
    Regular Value.IsFinite (entry.eval resolve).outcome := by
  cases entry with
  | empty => exact .ok Value.isFinite_zero
  | literal v => exact .ok (hliteral v rfl)
  | reference target => exact hr target
  | formula body => exact regular_formula hr body

end Entry

/-! ## Cells and expressions -/

namespace Grid

variable {g : Grid} {limit : Int} {more : Nat} {visited : List String} {name : String}

theorem isFinite_of_entry (h : g.entry name = .literal v) : v.IsFinite := by
  cases htext : g.text? name with
  | none =>
    rw [entry, htext] at h
    cases h
  | some text => exact Entry.isFinite_of_ofText (entry_of_text? htext ▸ h)

theorem regular_checkName (g : Grid) (name : String) :
    Regular (fun _ => True) (g.checkName name) := by
  cases hcheck : g.checkName name with
  | error e =>
    obtain hlocal | ⟨count, hcount, rfl⟩ := checkName_eq_error hcheck
    · exact .error hlocal.1
    · exact .tooManyDigits hcount
  | ok => exact .ok trivial

/-- A cell ends with a text or a finite number, or with an error of formulas, below every chain. -/
theorem regular_resolveBelow (g : Grid) (limit : Int) (more : Nat) (visited : List String)
    (name : String) : Regular Value.IsFinite (g.resolveBelow limit more visited name).outcome := by
  induction more, visited, name using chain_induction with
  | cycle hmem =>
    rw [resolveBelow_of_mem hmem]
    exact .error rfl
  | tooLong hmem =>
    rw [resolveBelow_zero hmem]
    exact .error rfl
  | @below more visited name hmem ih =>
    rw [resolveBelow_succ hmem]
    refine Regular.andThen (g.regular_checkName _) fun _ _ => ?_
    have hentry : Regular (fun entry => entry = g.entry (Text.upper name))
        (.ok (g.entry (Text.upper name))) := .ok rfl
    refine Regular.andThen hentry ?_
    rintro entry rfl
    exact Entry.regular_eval (fun v hv => isFinite_of_entry hv) ih

theorem regular_evaluate (g : Grid) (limit : Int) (expression : String) :
    Regular Value.IsFinite (g.evaluate limit expression) := by
  unfold evaluate evaluateTraced Spreadsheet.evaluate
  split
  · exact .ok Value.isFinite_zero
  split
  · exact .error rfl
  split
  · exact .ok (.number ⟨_, rfl⟩)
  · exact regular_formula (fun name => g.regular_resolveBelow limit limit.toNat [] name) _

/-! ## What is shown -/

theorem exists_marker {e : Error} (h : e.isFormulaError) : ∃ shown, e.marker = .ok shown := by
  unfold Error.marker
  rw [if_pos h]
  split
  · exact ⟨_, rfl⟩
  · exact ⟨_, rfl⟩

/-- A cell of a grid, and every expression over its cells, has a text or a finite number as its value
or ends in an error of formulas; and what a cell of a sheet shows is always a text. The only other
error is that a name has more digits than are read. -/
theorem regular_outcomes (g : Grid) (limit : Int) (s : Sheet) (showValues : Bool)
    (name expression : String) :
    Regular Value.IsFinite (g.resolve limit name) ∧
      Regular Value.IsFinite (g.evaluate limit expression) ∧
      ((∃ shown, s.display showValues name = .ok shown) ∨
        ∃ count, Text.digitLimit < count ∧
          s.display showValues name = .error (.tooManyDigits count)) := by
  refine ⟨g.regular_resolveBelow limit limit.toNat [] name, g.regular_evaluate limit expression, ?_⟩
  have hvalue : Regular Value.IsFinite (s.value name) :=
    s.grid.regular_resolveBelow s.chainLimit s.chainLimit.toNat [] name
  unfold Sheet.display
  dsimp only
  split
  · exact .inl ⟨_, rfl⟩
  · cases hresult : s.value name with
    | ok v => exact .inl ⟨_, rfl⟩
    | error e =>
      rw [hresult] at hvalue
      cases hvalue with
      | error hformula => exact .inl (exists_marker hformula)
      | tooManyDigits hcount => exact .inr ⟨_, hcount, rfl⟩

end Grid

end Spreadsheet
