import Spreadsheet.Proofs.Decimal.Display
import Spreadsheet.Proofs.Decimal.PlainLength
import Spreadsheet.Proofs.Grid.Equations
import Spreadsheet.Sheet.Display

/-!
# Texts that look like values

A text that is left as it is shown should be known for what the value of the cell looks like. This
is so for formulas, which are shown by their values. All other texts are shown as they were typed. A
text that is no number is its own value. A number may have been typed in another form than values
are shown in, and a cell that shows nothing has the value zero.

## Main definitions

* `Sheet.LooksLikeValue` — the texts that are shown as the value that they give their cell.

## Main statements

* `Decimal.toDisplay_eq_iff_of_length_le` — the numbers of short texts.
* `Sheet.looksLikeValue_iff` — the cells that show their values.
* `Sheet.display_recognized_iff` — the cells whose displays are known for their values.
* `Sheet.display_not_recognized` — an empty cell and a number in another form.
-/

namespace Spreadsheet

namespace Decimal

variable {d : Decimal} {text : String}

theorem ScientificForm.length_chars (f : ScientificForm) : 10 < f.chars.length := by
  have hplaces := f.length_places
  have hexponent := f.length_exponent
  simp only [chars, List.length_append, List.length_cons]
  omega

/-- A number that was read from a short text is shown as this text if that is its plain form. -/
theorem toDisplay_eq_iff_of_length_le (h : ofLiteral? text = some d) (hlength : text.length ≤ 10) :
    d.toDisplay = text ↔ d.toPlain = text := by
  constructor
  · intro hshown
    obtain ⟨hplain, -⟩ | hscientific := d.toDisplay_cases
    · rw [← hplain, hshown]
    · obtain ⟨f, hchars, -⟩ := exists_scientificForm d
      have hlong := f.length_chars
      rw [← hchars, ← hscientific, hshown, String.length_toList] at hlong
      omega
  · intro hplain
    -- the exponent of what is read from a plain form is not positive
    have hflat : d.flat = d := by
      have hread := ofLiteral?_toPlain h
      rw [hplain, h] at hread
      exact (Option.some.inj hread).symm
    have hexponent : d.exponent ≤ 0 := by
      rw [← hflat, flat]
      split
      · omega
      · exact Int.le_refl 0
    rw [← hplain] at hlength
    rw [(toDisplay_eq_toPlain_iff d).1.2 ⟨hlength, by omega⟩, hplain]

end Decimal

namespace Sheet

variable {s : Sheet} {name text : String} {v : Value}

/-- Whether a text is shown as the value that it gives its cell. -/
def LooksLikeValue (text : String) : Prop :=
  isFormula text ∨ text ≠ "" ∧ ∀ n, Decimal.ofLiteral? text = some n → n.toDisplay = text

/-! ## Values of texts -/

/-- The entry of a cell is that of its text, the empty one included. -/
theorem entry_eq (s : Sheet) (name : String) :
    s.grid.entry (Text.upper name) = .ofText (s.get name) := by
  have htext : s.grid.text? (Text.upper name) = s.text? name :=
    Grid.text?_ofTexts_upper s.rows s.columns s.cells name
  rw [Grid.entry, htext, get]
  cases s.text? name with
  | none => rfl
  | some text => rfl

theorem eval_of_value (h : s.value name = .ok v) :
    ((Entry.ofText (s.get name)).eval (s.grid.resolveTraced s.chainLimit)).outcome = .ok v := by
  rw [← entry_eq]
  exact Grid.eval_of_resolve h

theorem ofText_of_not_isFormula (hformula : isFormula text = false) (hne : text ≠ "") :
    Entry.ofText text = .literal (Value.ofText text) := by
  unfold Entry.ofText
  split
  next hnil => exact absurd (String.toList_eq_nil_iff.1 hnil) hne
  next hbody => simp [isFormula, hbody] at hformula
  next => rfl

/-- The value of a cell without a formula is the number that its text is written for, or the text
itself, and zero if there is none. -/
theorem value_of_not_isFormula (h : s.value name = .ok v)
    (hformula : isFormula (s.get name) = false) :
    v = if s.get name = "" then .zero else .ofText (s.get name) := by
  have heval := eval_of_value h
  split
  next hempty =>
    rw [hempty] at heval
    exact (Except.ok.inj heval).symm
  next hne =>
    rw [ofText_of_not_isFormula hformula hne] at heval
    exact (Except.ok.inj heval).symm

theorem display_ofText_iff :
    (Value.ofText text).display = text ↔
      ∀ n, Decimal.ofLiteral? text = some n → n.toDisplay = text := by
  unfold Value.ofText
  cases Decimal.ofLiteral? text with
  | none => exact iff_of_true rfl (by simp)
  | some n => simp [Value.display, Number.toDisplay, Number.write]

/-! ## Displays -/

/-- A cell with a value shows it if it has a formula, and its text otherwise. -/
theorem display_of_value (h : s.value name = .ok v) :
    s.display true name = .ok (if isFormula (s.get name) then v.display else s.get name) := by
  unfold display
  cases hformula : isFormula (s.get name) <;> simp [hformula, h]

theorem isCalculationResult_of_value (h : s.value name = .ok v) (text : String) :
    s.isCalculationResult name text = .ok (decide (text = v.display)) := by
  rw [isCalculationResult, h]

/-- A cell shows what its value looks like if its text does so. -/
theorem looksLikeValue_iff (h : s.value name = .ok v) :
    LooksLikeValue (s.get name) ↔ s.display true name = .ok v.display := by
  rw [display_of_value h, Except.ok.injEq]
  cases hformula : isFormula (s.get name) with
  | true => simp [LooksLikeValue, hformula]
  | false =>
    obtain rfl := value_of_not_isFormula h hformula
    have hzero : Value.zero.display ≠ "" := by decide +kernel
    by_cases hempty : s.get name = ""
    · simp [LooksLikeValue, hempty, hzero.symm, isFormula]
    · rw [if_neg hempty, if_neg Bool.false_ne_true, eq_comm, display_ofText_iff]
      simp [LooksLikeValue, hformula, hempty]

/-- A cell with a formula shows its value, and any other cell its text. What is known for the value
of the cell is only what the value looks like. So the display of a cell is known, and nothing else
is, if and only if there is a formula, or a text that is no number, or a number in the form in which
it is shown. In ten characters or less this is its plain form. -/
theorem display_recognized_iff (s : Sheet) (name : String) (v : Value) (h : s.value name = .ok v) :
    s.display true name = .ok (if isFormula (s.get name) then v.display else s.get name) ∧
      (∀ text, s.isCalculationResult name text = .ok (decide (text = v.display))) ∧
      ((∃ shown, s.display true name = .ok shown ∧
          ∀ text, s.isCalculationResult name text = .ok (decide (text = shown))) ↔
        LooksLikeValue (s.get name)) ∧
      ∀ n, Decimal.ofLiteral? (s.get name) = some n → (s.get name).length ≤ 10 →
        (n.toDisplay = s.get name ↔ n.toPlain = s.get name) := by
  refine ⟨display_of_value h, isCalculationResult_of_value h, ?_,
    fun n => Decimal.toDisplay_eq_iff_of_length_le⟩
  rw [looksLikeValue_iff h]
  constructor
  · rintro ⟨shown, hshown, hknown⟩
    have hvalue := isCalculationResult_of_value h v.display
    rw [hknown, Except.ok.injEq, decide_eq_decide] at hvalue
    rw [hshown, hvalue.2 rfl]
  · intro hshown
    exact ⟨v.display, hshown, isCalculationResult_of_value h⟩

/-- A formula over a number in a form of its own is known for its value. -/
theorem display_recognized_iff_formula :
    let s := ofTexts 1 2 (.ofList [("A1", "=inc(B1)"), ("B1", "007")])
    s.value "a1" = .ok (.decimal ⟨false, 8, 0⟩) ∧ s.display true "a1" = .ok "8" ∧
      ∀ text, s.isCalculationResult "a1" text = .ok (decide (text = "8")) := by
  intro s
  have hvalue : s.value "a1" = .ok (.decimal ⟨false, 8, 0⟩) := by decide +kernel
  have hshown : s.display true "a1" = .ok "8" := by decide +kernel
  obtain ⟨-, -, hknown, -⟩ := display_recognized_iff s "a1" _ hvalue
  obtain ⟨shown, hshown', htexts⟩ := hknown.2 (.inl (by decide +kernel))
  obtain rfl : "8" = shown := Except.ok.inj (hshown.symm.trans hshown')
  exact ⟨hvalue, hshown, htexts⟩

/-- An empty cell shows nothing, but only a zero is known for its value. The number in the other
cell is not known in the form in which it was typed. -/
theorem display_not_recognized :
    let s := ofTexts 1 2 (.ofList [("B1", "007")])
    s.value "A1" = .ok .zero ∧ s.display true "A1" = .ok "" ∧
      s.isCalculationResult "A1" "" = .ok false ∧ s.isCalculationResult "A1" "0" = .ok true ∧
      s.value "B1" = .ok (.decimal ⟨false, 7, 0⟩) ∧ s.display true "B1" = .ok "007" ∧
      s.isCalculationResult "B1" "007" = .ok false ∧
      s.isCalculationResult "B1" "7" = .ok true := by
  decide +kernel

end Sheet

end Spreadsheet
