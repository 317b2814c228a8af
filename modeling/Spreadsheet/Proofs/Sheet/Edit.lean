import Spreadsheet.Proofs.Sheet.Csv
import Spreadsheet.Sheet.Edit

/-!
# Effects of edits

An edit fails if it is given a name of no cell, or if it meets a column that has no letters. Names
are checked before anything is stored, and so is the column that is to be removed. Only a row with
more columns than there are letters for is removed cell by cell until the first column without
letters is met: the edit fails, and the cells are gone.

## Main definitions

* `Sheet.Fails` — the edits that fail, with their errors.
* `Sheet.Effect` — what edits do.

## Main statements

* `Sheet.effect_edit` — every edit has one of these effects.
* `Sheet.fails_iff` — these are all edits that fail.
* `Sheet.sheet_of_error` — what a failing edit leaves.
* `Sheet.sheet_of_error_wide` — a failing edit that loses a text.
-/

namespace Spreadsheet

namespace Sheet

open CellName (spell)

variable {s : Sheet} {e : Edit} {err : Error} {name text : String} {position : Nat × Nat}

/-! ## Storing a text -/

theorem set_of_error (h : CellName.split (Text.upper name) = .error err) :
    s.set name text = ⟨s, some err⟩ := by
  unfold Sheet.set
  dsimp only
  rw [h]

theorem set_of_ok (h : CellName.split name = .ok position) :
    s.set name text =
      if s.get name = text then s.done
      else { s with cells := s.cells.insert (Text.upper name) text, dirty := true }.done := by
  have hget : s.get (Text.upper name) = s.get name := by
    rw [get, text?, Text.upper_upper, ← text?, ← get]
  unfold Sheet.set
  dsimp only
  rw [CellName.split_upper.2 h, hget]

/-! ## Names of a row -/

theorem mem_lastRowNames : name ∈ s.lastRowNames ↔
    ∃ column : Int, 1 ≤ column ∧ column ≤ s.columns ∧ column ≤ Column.last ∧
      spell s.rows column = name := by
  simp only [lastRowNames, namedColumns, List.mem_filterMap, mem_upTo]
  constructor
  · rintro ⟨column, ⟨hpos, hle⟩, hname⟩
    rw [CellName.ofPosition_eq hpos (by omega)] at hname
    exact ⟨column, hpos, by omega, by omega, Option.some.inj hname⟩
  · rintro ⟨column, hpos, hle, hlast, rfl⟩
    refine ⟨column, ⟨hpos, by omega⟩, ?_⟩
    rw [CellName.ofPosition_eq hpos hlast]
    rfl

/-! ## Failures -/

/-- The edits of a sheet that fail, with their errors. -/
inductive Fails (s : Sheet) : Edit → Error → Prop
  | set {name : String} {e : Error} (h : CellName.split (Text.upper name) = .error e)
      (text : String) : Fails s (.set name text) e
  | deleteRow (hrows : s.rows ≠ 0) (hcolumns : Column.last < s.columns) :
      Fails s .deleteRow (.unnamedColumn (Column.last + 1))
  | deleteColumn (hrows : 0 < s.rows) (hzero : s.columns ≠ 0)
      (hcolumns : s.columns < 1 ∨ Column.last < s.columns) :
      Fails s .deleteColumn (.unnamedColumn s.columns)

/-- What a failing edit leaves, and its error. -/
theorem Fails.edit_eq (h : s.Fails e err) :
    s.edit e = ⟨if e = .deleteRow then { s with cells := s.cells.eraseAll s.lastRowNames } else s,
      some err⟩ := by
  cases h with
  | set h text => rw [edit, set_of_error h, if_neg (by simp)]
  | deleteRow hrows hcolumns =>
    change Sheet.deleteRow s = _
    rw [Sheet.deleteRow, if_neg hrows]
    exact if_pos hcolumns
  | deleteColumn hrows hzero hcolumns =>
    have hname : Column.name s.columns = .error (.unnamedColumn s.columns) :=
      if_neg (by omega)
    change Sheet.deleteColumn s = _
    simp [Sheet.deleteColumn, hzero, hname, Int.not_le.2 hrows]

/-! ## Effects -/

/-- The edits of a sheet that find nothing to do. -/
def Idle (s : Sheet) : Edit → Prop
  | .set name text => (∃ position, CellName.split name = .ok position) ∧ s.get name = text
  | .clear name => Text.upper name ∉ s.cells.keys
  | .deleteRow => s.rows = 0
  | .deleteColumn => s.columns = 0
  | .addRow | .addColumn => False

/-- What an edit of a sheet does. -/
inductive Effect (s : Sheet) : Edit → Edited → Prop
  | fails {e : Edit} {err : Error} (h : s.Fails e err) (hkept : e ≠ .deleteRow) :
      Effect s e ⟨s, some err⟩
  /-- A row that is too wide stays, but it is cleared. -/
  | clearRow (hrows : s.rows ≠ 0) (hcolumns : Column.last < s.columns) :
      Effect s .deleteRow ⟨{ s with cells := s.cells.eraseAll s.lastRowNames },
        some (.unnamedColumn (Column.last + 1))⟩
  | idle {e : Edit} (h : s.Idle e) : Effect s e s.done
  | set {name text : String} {position : Nat × Nat} (hsplit : CellName.split name = .ok position)
      (h : s.get name ≠ text) :
      Effect s (.set name text)
        (done { s with cells := s.cells.insert (Text.upper name) text, dirty := true })
  | clear {name : String} (h : Text.upper name ∈ s.cells.keys) :
      Effect s (.clear name) (done { s with cells := s.cells.erase (Text.upper name), dirty := true })
  | addRow : Effect s .addRow (done { s with rows := s.rows + 1, dirty := true })
  | addColumn : Effect s .addColumn (done { s with columns := s.columns + 1, dirty := true })
  | deleteRow (hrows : s.rows ≠ 0) (hlast : s.columns ≤ Column.last) :
      Effect s .deleteRow (done { s with
        rows := s.rows - 1, cells := s.cells.eraseAll s.lastRowNames, dirty := true })
  /-- A column without rows needs no letters. -/
  | deleteColumn (hcolumns : s.columns ≠ 0)
      (h : s.rows ≤ 0 ∨ 1 ≤ s.columns ∧ s.columns ≤ Column.last) :
      Effect s .deleteColumn (done { s with
        columns := s.columns - 1
        cells := s.cells.eraseAll ((upTo s.rows).map fun row => spell row s.columns)
        dirty := true })

theorem Fails.effect (h : s.Fails e err) : s.Effect e (s.edit e) := by
  rw [h.edit_eq]
  split
  next hrow =>
    subst hrow
    cases h with
    | deleteRow hrows hcolumns => exact .clearRow hrows hcolumns
  next hkept => exact .fails h hkept

/-- Every edit has one of these effects. -/
theorem effect_edit (s : Sheet) (e : Edit) : s.Effect e (s.edit e) := by
  cases e with
  | set name text =>
    cases hsplit : CellName.split (Text.upper name) with
    | error err => exact (Fails.set hsplit text).effect
    | ok position =>
      have hname := CellName.split_upper.1 hsplit
      rw [edit, set_of_ok hname]
      split
      next hsame => exact .idle ⟨⟨position, hname⟩, hsame⟩
      next hnew => exact .set hname hnew
  | clear name =>
    rw [edit, Sheet.clear]
    split
    next hcontains => exact .clear (OrderedMap.contains_iff.1 hcontains)
    next hnone => exact .idle fun hmem => hnone (OrderedMap.contains_iff.2 hmem)
  | addRow => exact .addRow
  | addColumn => exact .addColumn
  | deleteRow =>
    by_cases hrows : s.rows = 0
    · rw [edit, Sheet.deleteRow, if_pos hrows]
      exact .idle hrows
    by_cases hlast : s.columns ≤ Column.last
    · rw [edit, Sheet.deleteRow, if_neg hrows]
      dsimp only
      rw [if_neg (by omega)]
      exact .deleteRow hrows hlast
    · exact (Fails.deleteRow hrows (by omega)).effect
  | deleteColumn =>
    by_cases hcolumns : s.columns = 0
    · rw [edit, Sheet.deleteColumn]
      exact if_pos hcolumns ▸ .idle hcolumns
    by_cases hrows : s.rows ≤ 0
    · have hnone : upTo s.rows = [] := by simp [upTo, Int.toNat_of_nonpos hrows]
      have heffect := Effect.deleteColumn hcolumns (.inl hrows)
      rw [hnone] at heffect
      rw [edit, Sheet.deleteColumn]
      dsimp only
      rw [if_neg hcolumns, if_pos hrows]
      exact heffect
    by_cases hletters : 1 ≤ s.columns ∧ s.columns ≤ Column.last
    · have hname : Column.name s.columns = .ok (String.ofList (Column.letters s.columns.toNat)) :=
        if_pos hletters
      rw [edit, Sheet.deleteColumn]
      dsimp only
      rw [if_neg hcolumns, if_neg hrows, hname]
      exact .deleteColumn hcolumns (.inr hletters)
    · exact (Fails.deleteColumn (by omega) hcolumns (by omega)).effect

theorem fails_of_error (h : (s.edit e).error? = some err) : s.Fails e err := by
  have heffect := effect_edit s e
  generalize s.edit e = r at h heffect
  cases heffect with
  | fails hfails =>
    obtain rfl := Option.some.inj h
    exact hfails
  | clearRow hrows hcolumns =>
    obtain rfl := Option.some.inj h
    exact .deleteRow hrows hcolumns
  | idle | set | clear | addRow | addColumn | deleteRow | deleteColumn => cases h

/-- The edits that fail are those that are given a name of no cell or meet a column without letters.
-/
theorem fails_iff : (s.edit e).error? = some err ↔ s.Fails e err :=
  ⟨fails_of_error, fun h => by rw [h.edit_eq]⟩

/-! ## What is left -/

/-- A failing edit changes neither the extent of the sheet nor its mark, and takes no text away but
those of the last row, which it does if the row that it should remove has more columns than there are
letters for. So the sheet is what it was if and only if no such row loses a text. -/
theorem sheet_of_error (s : Sheet) (e : Edit) (err : Error) (h : (s.edit e).error? = some err) :
    (s.edit e).sheet = { s with cells := (s.edit e).sheet.cells } ∧
      (s.edit e).sheet.cells.entries =
        s.cells.entries.filter (fun c => ¬ (e = .deleteRow ∧ c.1 ∈ s.lastRowNames)) ∧
      (e = .deleteRow → Column.last < s.columns) ∧
      ((s.edit e).sheet = s ↔ ¬ (e = .deleteRow ∧ ∃ name ∈ s.cells.keys, name ∈ s.lastRowNames)) := by
  have hfails := fails_of_error h
  rw [hfails.edit_eq]
  by_cases he : e = .deleteRow
  · have hcolumns : Column.last < s.columns := by
      subst he
      cases hfails with
      | deleteRow hrows hcolumns => exact hcolumns
    have hentries := OrderedMap.entries_eraseAll s.cells s.lastRowNames
    have hkept : { s with cells := s.cells.eraseAll s.lastRowNames } = s ↔
        ∀ name ∈ s.cells.keys, name ∉ s.lastRowNames := by
      rw [← OrderedMap.eraseAll_eq_self_iff]
      exact ⟨congrArg Sheet.cells, fun h => congrArg (fun cells => { s with cells }) h⟩
    simpa [he, hentries, hkept] using hcolumns
  · simp [he]

/-- A sheet with a text in its last row and one column more than there are letters for. -/
def wide : Sheet :=
  ofTexts 5 18279 (.ofList [("A5", "x")])

/-- Storing a text under a name without letters, and removing the column without letters. -/
theorem sheet_of_error_refused :
    (wide.edit (.set "1A" "y")).error? = some (.invalidReference "1A") ∧
      (wide.edit (.set "1A" "y")).sheet = wide ∧
      (wide.edit .deleteColumn).error? = some (.unnamedColumn 18279) ∧
      (wide.edit .deleteColumn).sheet = wide := by
  have hset : (wide.edit (.set "1A" "y")).error? = some (.invalidReference "1A") := by
    decide +kernel
  have hdelete : (wide.edit .deleteColumn).error? = some (.unnamedColumn 18279) := by
    decide +kernel
  obtain ⟨-, -, -, hset'⟩ := sheet_of_error wide (.set "1A" "y") _ hset
  obtain ⟨-, -, -, hdelete'⟩ := sheet_of_error wide .deleteColumn _ hdelete
  exact ⟨hset, hset'.2 (by simp), hdelete, hdelete'.2 (by simp)⟩

/-- Removing the row fails at the column without letters, after the text was taken away. -/
theorem sheet_of_error_wide :
    (wide.edit .deleteRow).error? = some (.unnamedColumn 18279) ∧
      wide.cells.entries = [("A5", "x")] ∧ (wide.edit .deleteRow).sheet.cells.entries = [] := by
  have hfails : wide.Fails .deleteRow (.unnamedColumn 18279) := .deleteRow (by decide) (by decide)
  have hlast : "A5" ∈ wide.lastRowNames := mem_lastRowNames.2 ⟨1, by decide⟩
  have hentries : wide.cells.entries = [("A5", "x")] := by decide +kernel
  refine ⟨fails_iff.2 hfails, hentries, ?_⟩
  rw [hfails.edit_eq, if_pos rfl, OrderedMap.entries_eraseAll, hentries]
  simp [hlast]

end Sheet

end Spreadsheet
