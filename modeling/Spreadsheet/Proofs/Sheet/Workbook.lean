import Mathlib.Data.List.Nodup
import Mathlib.Data.List.Perm.Basic
import Spreadsheet.Proofs.Decimal.Rational
import Spreadsheet.Proofs.Worksheet.Extent
import Spreadsheet.Sheet.Worksheet

/-!
# Sheets that become workbooks

A worksheet takes every text of a sheet whose names are those of its cells, and the sheet of the
worksheet has these texts again, row by row. Literals are the exception: they became numbers, which
come back in their plain form. Empty texts are lost, but their cells count for the extent.

## Main definitions

* `Sheet.IsPlaceable` — sheets that a worksheet has cells for.
* `Sheet.retyped` — the text that comes back for a text.

## Main statements

* `Sheet.mem_entries_ofWorksheet`, `Sheet.keys_ofWorksheet` — the cells of the sheet of a worksheet.
* `Sheet.toWorksheet_eq` — the worksheet of a sheet.
* `Sheet.ofWorkbook_toWorkbook` — the sheet of the workbook of a sheet.
-/

namespace Spreadsheet.Sheet

open CellName (split IsCanonical)

variable {s : Sheet} {w : Worksheet} {p : Position} {name text : String}

/-! ## The sheet of a worksheet -/

/-- The text of a position that a sheet takes from a worksheet: one that is not empty. -/
def filledText? (w : Worksheet) (p : Position) : Option String :=
  (w.valueAt p).text?.filter (· ≠ "")

theorem filledText?_eq_some :
    filledText? w p = some text ↔ (w.valueAt p).text? = some text ∧ text ≠ "" := by
  simp [filledText?, Option.filter_eq_some_iff]

/-- The positions of the used range from which a sheet takes a text. -/
def filledPositions (w : Worksheet) : List Position :=
  w.range.filter fun p => (filledText? w p).isSome

/-- A position with a text was given a value. -/
theorem exists_value_of_text? (h : (w.valueAt p).text? = some text) :
    ∃ v, (p, v) ∈ w.values.entries ∧ v.text? = some text := by
  unfold Worksheet.valueAt at h
  cases hget : w.values.get? p with
  | none =>
    rw [hget] at h
    cases h
  | some v =>
    rw [hget] at h
    exact ⟨v, OrderedMap.get?_eq_some.1 hget, h⟩

theorem covers_of_text? (h : (w.valueAt p).text? = some text) : w.Covers p := by
  obtain ⟨v, hv, -⟩ := exists_value_of_text? h
  exact Worksheet.covers_of_mem (List.mem_append_left _ (List.mem_map_of_mem hv))

theorem pairwise_filledPositions (w : Worksheet) : (filledPositions w).Pairwise Position.Before :=
  w.pairwise_range.filter _

theorem map_fst_filterMap {α β γ : Type} (l : List α) (f : α → β) (g : α → Option γ) :
    (l.filterMap fun a => (g a).map fun c => (f a, c)).map Prod.fst =
      (l.filter fun a => (g a).isSome).map f := by
  induction l with
  | nil => rfl
  | cons a l ih =>
    rw [List.filterMap_cons, List.filter_cons]
    cases hg : g a with
    | none => exact ih
    | some c => exact congrArg (f a :: ·) ih

theorem entries_ofWorksheet (w : Worksheet) :
    (ofWorksheet w).cells.entries =
      w.range.filterMap fun p => (filledText? w p).map fun text => (p.name, text) := by
  have hkeys := map_fst_filterMap w.range Position.name (filledText? w)
  have hnodup : ((filledPositions w).map Position.name).Nodup :=
    ((pairwise_filledPositions w).imp Position.Before.ne).map _ fun _ _ hne =>
      mt Position.name_inj.1 hne
  exact OrderedMap.entries_ofList (hkeys ▸ hnodup)

/-- A sheet takes the texts of a worksheet that are not empty, under the names of their positions. -/
theorem mem_entries_ofWorksheet : (name, text) ∈ (ofWorksheet w).cells.entries ↔
    text ≠ "" ∧ ∃ p : Position, p.name = name ∧ (w.valueAt p).text? = some text := by
  rw [entries_ofWorksheet, List.mem_filterMap]
  constructor
  · rintro ⟨p, -, hp⟩
    obtain ⟨text', htext, hentry⟩ := Option.map_eq_some_iff.1 hp
    obtain ⟨rfl, rfl⟩ := Prod.mk.inj hentry
    obtain ⟨hvalue, hne⟩ := filledText?_eq_some.1 htext
    exact ⟨hne, p, rfl, hvalue⟩
  · rintro ⟨hne, p, rfl, hvalue⟩
    exact ⟨p, Worksheet.mem_range.2 (covers_of_text? hvalue),
      by rw [filledText?_eq_some.2 ⟨hvalue, hne⟩]; rfl⟩

/-- The cells of the sheet of a worksheet are in the order of reading. -/
theorem keys_ofWorksheet (w : Worksheet) :
    (ofWorksheet w).cells.keys = (filledPositions w).map Position.name := by
  rw [OrderedMap.keys, entries_ofWorksheet, map_fst_filterMap, filledPositions]

theorem rows_ofWorksheet (w : Worksheet) : (ofWorksheet w).rows = w.rows :=
  congrArg Nat.cast (Worksheet.rows_append_blanks fun _ => Worksheet.mem_range.1)

theorem columns_ofWorksheet (w : Worksheet) : (ofWorksheet w).columns = w.columns :=
  congrArg Nat.cast (Worksheet.columns_append_blanks fun _ => Worksheet.mem_range.1)

/-! ## The worksheet of a sheet -/

/-- Whether a worksheet has a cell for every name of a sheet and takes the text of it as it is. -/
structure IsPlaceable (s : Sheet) : Prop where
  isCanonical : ∀ name ∈ s.cells.keys, IsCanonical name
  row_le : ∀ name ∈ s.cells.keys, ∀ row column, split name = .ok (row, column) →
    row ≤ Position.lastRow
  length_le : ∀ e ∈ s.cells.entries, e.2.length ≤ Worksheet.textLimit
  isAllowed : ∀ e ∈ s.cells.entries, ∀ c ∈ e.2.toList, ¬ Worksheet.isForbidden c

theorem exists_position {row column : Nat} (h : split name = .ok (row, column))
    (hname : IsCanonical name) (hlast : row ≤ Position.lastRow) :
    ∃ p : Position, p.row = row ∧ p.column = column ∧ p.name = name := by
  obtain ⟨⟨hpos, hle⟩, -⟩ := CellName.split_eq_ok.1 h
  obtain ⟨hrow, rfl⟩ := (CellName.isCanonical_iff h).1 hname
  refine ⟨⟨row, column, hrow, hlast, hpos, hle⟩, rfl, rfl, ?_⟩
  rw [Position.name_eq_spelling, CellName.spelling_zero]

/-- The cells of a sheet by their positions. -/
theorem IsPlaceable.exists_cells (hs : s.IsPlaceable) :
    ∃ l : List (Position × String), s.cells.entries = l.map fun e => (e.1.name, e.2) := by
  have hentry : ∀ e ∈ s.cells.entries, ∃ e' : Position × String, (e'.1.name, e'.2) = e := by
    intro e he
    have hmem := List.mem_map_of_mem (f := Prod.fst) he
    obtain ⟨row, column, hsplit, -⟩ := hs.isCanonical e.1 hmem
    obtain ⟨p, -, -, hp⟩ := exists_position hsplit (hs.isCanonical e.1 hmem)
      (hs.row_le e.1 hmem row column hsplit)
    exact ⟨(p, e.2), Prod.ext hp rfl⟩
  have : Nonempty Position := ⟨⟨1, 1, by decide, by decide, by decide, by decide⟩⟩
  choose! f hf using hentry
  refine ⟨s.cells.entries.map f, ?_⟩
  rw [List.map_map]
  exact (List.map_id _).symm.trans (List.map_congr_left fun e he => (hf e he).symm)

/-- The text that comes back for a text. -/
def retyped (text : String) : String :=
  if text.toList.head? = some '=' then text
  else
    match Decimal.ofLiteral? text with
    | some d => d.toPlain
    | none => text

theorem retyped_eq_self (h : text.toList.head? = some '=' ∨ Decimal.ofLiteral? text = none) :
    retyped text = text := by
  unfold retyped
  split
  · rfl
  next hhead => rw [h.resolve_left hhead]

/-- Literals come back without an exponent, as literals for the same rational number. -/
theorem retyped_of_literal {d : Decimal} (hhead : text.toList.head? ≠ some '=')
    (h : Decimal.ofLiteral? text = some d) :
    Decimal.IsPositional (retyped text) ∧
      ∃ d', Decimal.ofLiteral? (retyped text) = some d' ∧ d'.toRat = d.toRat := by
  have hplain : retyped text = d.toPlain := by rw [retyped, if_neg hhead, h]
  rw [hplain]
  exact ⟨d.isPositional_toPlain, d.flat, Decimal.ofLiteral?_toPlain h, d.toRat_flat⟩

theorem retyped_eq_empty : retyped text = "" ↔ text = "" := by
  constructor
  · intro h
    cases hliteral : Decimal.ofLiteral? text with
    | none => rwa [retyped_eq_self (.inr hliteral)] at h
    | some d =>
      by_cases hhead : text.toList.head? = some '='
      · rwa [retyped_eq_self (.inl hhead)] at h
      · obtain ⟨-, d', hd', -⟩ := retyped_of_literal hhead hliteral
        rw [h] at hd'
        cases hd'
  · rintro rfl
    exact retyped_eq_self (.inr (by decide +kernel))

theorem text?_cellValue (text : String) : (cellValue text).text? = some (retyped text) := by
  unfold cellValue retyped
  split
  · rfl
  · unfold Value.ofText
    cases Decimal.ofLiteral? text <;> rfl

theorem accept_cellValue (hlength : text.length ≤ Worksheet.textLimit)
    (hallowed : ∀ c ∈ text.toList, ¬ Worksheet.isForbidden c) :
    Worksheet.accept (cellValue text) = .ok (cellValue text) := by
  have htext : Worksheet.accept (.text text) = .ok (.text text) := by
    have hcut : text.toList.take Worksheet.textLimit = text.toList :=
      List.take_of_length_le (String.length_toList ▸ hlength)
    have hany : text.toList.any Worksheet.isForbidden = false := by simpa using hallowed
    rw [Worksheet.accept]
    simp [hcut, hany]
  unfold cellValue
  split
  · exact htext
  · unfold Value.ofText
    cases Decimal.ofLiteral? text with
    | none => exact htext
    | some d => rfl

theorem foldlM_eq_ok {ε α β : Type} {l : List α} {f : β → α → Except ε β} {g : β → α → β}
    (h : ∀ b, ∀ a ∈ l, f b a = .ok (g b a)) (b : β) : l.foldlM f b = .ok (l.foldl g b) := by
  induction l generalizing b with
  | nil => rfl
  | cons a l ih =>
    rw [List.foldlM_cons, h b a List.mem_cons_self]
    exact ih (fun b a ha => h b a (List.mem_cons_of_mem _ ha)) _

theorem put_name (w : Worksheet) (p : Position) (v : Value) :
    (do
      let (row, column) ← split p.name
      w.put (← Position.of row column) v) = w.put p v := by
  rw [p.split_name]
  show (Position.of p.row p.column >>= fun p => w.put p v) = _
  rw [p.of_row_column]
  rfl

/-- Cells that are named by their positions are put there. -/
theorem ofList_names {title : String} {l : List (Position × Value)}
    (h : ∀ e ∈ l, Worksheet.accept e.2 = .ok e.2) :
    Worksheet.ofList title (l.map fun e => (e.1.name, e.2)) = .ok ⟨title, .ofList l, []⟩ := by
  have hvalues : ∀ (l : List (Position × Value)) (w : Worksheet),
      l.foldl (fun w e => { w with values := w.values.insert e.1 e.2 }) w =
        { w with values := l.foldl (fun m e => m.insert e.1 e.2) w.values } := by
    intro l
    induction l with
    | nil => exact fun _ => rfl
    | cons e l ih => exact fun w => ih _
  have hputs := foldlM_eq_ok (l := l) (f := fun (w : Worksheet) e => w.put e.1 e.2)
    (g := fun w e => { w with values := w.values.insert e.1 e.2 })
    (fun w e he => by rw [Worksheet.put, h e he]; rfl) (.empty title)
  rw [hvalues] at hputs
  simp only [Worksheet.ofList, List.foldlM_map, put_name]
  exact hputs

/-- A worksheet has a cell for every name of a sheet, with the text or the number. -/
theorem toWorksheet_eq {l : List (Position × String)}
    (hcells : s.cells.entries = l.map fun e => (e.1.name, e.2))
    (haccept : ∀ e ∈ l, Worksheet.accept (cellValue e.2) = .ok (cellValue e.2)) :
    s.toWorksheet worksheetTitle =
      .ok ⟨worksheetTitle, .ofList (l.map fun e => (e.1, cellValue e.2)), []⟩ := by
  have htitle : Worksheet.newTitle worksheetTitle = .ok worksheetTitle := by decide
  have hnames : (s.cells.entries.map fun e => (e.1, cellValue e.2)) =
      (l.map fun e => (e.1, cellValue e.2)).map fun e => (e.1.name, e.2) := by
    rw [hcells, List.map_map, List.map_map]
    rfl
  rw [toWorksheet, htitle, hnames]
  exact ofList_names (List.forall_mem_map.2 haccept)

/-! ## There and back -/

section Cells

variable {l : List (Position × String)}

theorem nodup_positions (hcells : s.cells.entries = l.map fun e => (e.1.name, e.2)) :
    (l.map Prod.fst).Nodup := by
  have hnodup := s.cells.nodup
  rw [hcells, List.map_map] at hnodup
  refine List.Nodup.of_map Position.name ?_
  rwa [List.map_map]

theorem name_mem_keys (hcells : s.cells.entries = l.map fun e => (e.1.name, e.2)) :
    p.name ∈ s.cells.keys ↔ p ∈ l.map Prod.fst := by
  rw [OrderedMap.keys, hcells, List.map_map, List.mem_map, List.mem_map]
  exact exists_congr fun e => and_congr_right fun _ => Position.name_inj

/-- The texts of the values that a worksheet has for the texts of a sheet. -/
theorem text?_valueAt (hw : w.values.entries = l.map fun e => (e.1, cellValue e.2)) :
    (w.valueAt p).text? = some text ↔ ∃ e ∈ l, e.1 = p ∧ retyped e.2 = text := by
  constructor
  · intro h
    obtain ⟨v, hmem, hv⟩ := exists_value_of_text? h
    rw [hw] at hmem
    obtain ⟨e, he, hentry⟩ := List.mem_map.1 hmem
    obtain ⟨hp, rfl⟩ := Prod.mk.inj hentry
    rw [text?_cellValue] at hv
    exact ⟨e, he, hp, Option.some.inj hv⟩
  · rintro ⟨e, he, rfl, rfl⟩
    have hmem : (e.1, cellValue e.2) ∈ w.values.entries := hw ▸ List.mem_map_of_mem he
    rw [Worksheet.valueAt, OrderedMap.get?_eq_some.2 hmem, Option.getD_some, text?_cellValue]

/-- The cells that a sheet takes from the worksheet of another sheet. -/
theorem perm_entries (hcells : s.cells.entries = l.map fun e => (e.1.name, e.2))
    (hw : w.values.entries = l.map fun e => (e.1, cellValue e.2)) :
    (ofWorksheet w).cells.entries.Perm
      ((s.cells.entries.filter (·.2 ≠ "")).map fun e => (e.1, retyped e.2)) := by
  have hnodup : (((s.cells.entries.filter (·.2 ≠ "")).map fun e => (e.1, retyped e.2)).map
      Prod.fst).Nodup := by
    rw [List.map_map]
    exact s.cells.nodup.sublist (List.filter_sublist.map _)
  rw [List.perm_ext_iff_of_nodup (ofWorksheet w).cells.nodup.of_map hnodup.of_map]
  rintro ⟨name, text⟩
  rw [mem_entries_ofWorksheet]
  simp only [text?_valueAt hw, hcells, List.mem_map, List.mem_filter, decide_eq_true_eq]
  constructor
  · rintro ⟨hne, p, rfl, e, he, rfl, rfl⟩
    exact ⟨_, ⟨⟨e, he, rfl⟩, mt retyped_eq_empty.2 hne⟩, rfl⟩
  · rintro ⟨_, ⟨⟨e, he, rfl⟩, hne⟩, hentry⟩
    obtain ⟨rfl, rfl⟩ := Prod.mk.inj hentry
    exact ⟨mt retyped_eq_empty.1 hne, e.1, rfl, e, he, rfl, rfl⟩

end Cells

/-- A sheet that a worksheet has cells for becomes a workbook with one worksheet. The sheet of the
workbook reaches to the last row and column of a stored name, or to the first ones if there are none.
Its cells are those with a text that is not empty, in the order of reading. Formulas and texts that are
not literals come back as they were, and literals without an exponent as literals for the same rational
number. -/
theorem ofWorkbook_toWorkbook (hs : s.IsPlaceable) :
    ∃ (b : Workbook) (rows columns : Nat) (cells : CellTexts),
      s.toWorkbook worksheetTitle = .ok b ∧
      ofWorkbook b none = .ok (ofTexts rows columns cells) ∧
      IsGreatest (insert 1 {n | ∃ p : Position, p.name ∈ s.cells.keys ∧ p.row = n}) rows ∧
      IsGreatest (insert 1 {n | ∃ p : Position, p.name ∈ s.cells.keys ∧ p.column = n}) columns ∧
      (∃ ps : List Position, cells.keys = ps.map Position.name ∧ ps.Pairwise Position.Before) ∧
      cells.entries.Perm ((s.cells.entries.filter (·.2 ≠ "")).map fun e => (e.1, retyped e.2)) ∧
      ∀ e ∈ s.cells.entries,
        (e.2.toList.head? = some '=' ∨ Decimal.ofLiteral? e.2 = none → retyped e.2 = e.2) ∧
        ∀ d, e.2.toList.head? ≠ some '=' → Decimal.ofLiteral? e.2 = some d →
          Decimal.IsPositional (retyped e.2) ∧
            ∃ d', Decimal.ofLiteral? (retyped e.2) = some d' ∧ d'.toRat = d.toRat := by
  obtain ⟨l, hcells⟩ := hs.exists_cells
  have haccept : ∀ e ∈ l, Worksheet.accept (cellValue e.2) = .ok (cellValue e.2) := by
    intro e he
    have hmem : (e.1.name, e.2) ∈ s.cells.entries := hcells ▸ List.mem_map_of_mem he
    exact accept_cellValue (hs.length_le _ hmem) (hs.isAllowed _ hmem)
  have hsheet := toWorksheet_eq hcells haccept
  have hentries : (OrderedMap.ofList (l.map fun e => (e.1, cellValue e.2))).entries =
      l.map fun e => (e.1, cellValue e.2) := by
    refine OrderedMap.entries_ofList ?_
    rw [List.map_map]
    exact nodup_positions hcells
  generalize hw : (⟨worksheetTitle, .ofList (l.map fun e => (e.1, cellValue e.2)), []⟩ : Worksheet) =
    w at hsheet
  have hvalues : w.values.entries = l.map fun e => (e.1, cellValue e.2) := hw ▸ hentries
  have hpositions : ∀ p : Position, p ∈ w.positions ↔ p.name ∈ s.cells.keys := by
    intro p
    have hkeys : w.positions = l.map Prod.fst := by
      rw [Worksheet.positions, OrderedMap.keys, hvalues, List.map_map, ← hw, List.append_nil]
      rfl
    rw [hkeys, name_mem_keys hcells]
  have hrows := w.isGreatest_rows
  have hcolumns := w.isGreatest_columns
  simp only [hpositions] at hrows hcolumns
  refine ⟨⟨[w]⟩, w.rows, w.columns, (ofWorksheet w).cells, ?_, ?_, hrows, hcolumns,
    ⟨filledPositions w, keys_ofWorksheet w, pairwise_filledPositions w⟩,
    perm_entries hcells hvalues, fun e _ => ⟨retyped_eq_self, fun d => retyped_of_literal⟩⟩
  · rw [toWorkbook, hsheet]
    rfl
  · rw [← rows_ofWorksheet, ← columns_ofWorksheet]
    rfl

/-- A number with an exponent, a formula, a text and a cell without text, not in the order of reading.
-/
def jotted : Sheet :=
  ofTexts 2 2 (.ofList [("B3", "-1.50e3"), ("A2", "=B3+1"), ("C1", " x "), ("A5", "")])

theorem isPlaceable_jotted : jotted.IsPlaceable := by
  have hrows : jotted.cells.keys.all fun name =>
      (split name).toOption.all fun position => position.1 ≤ Position.lastRow := by decide +kernel
  have hallowed : jotted.cells.entries.all fun e => !e.2.toList.any Worksheet.isForbidden := by
    decide +kernel
  refine ⟨?_, fun name hname row column hsplit => ?_, by decide +kernel, fun e he c hc => ?_⟩
  · have hkeys : jotted.cells.keys = ["B3", "A2", "C1", "A5"] := by decide +kernel
    simp only [hkeys, List.forall_mem_cons]
    exact ⟨⟨3, 2, by decide +kernel⟩, ⟨2, 1, by decide +kernel⟩, ⟨1, 3, by decide +kernel⟩,
      ⟨5, 1, by decide +kernel⟩, by simp⟩
  · have hrow := List.all_eq_true.1 hrows name hname
    rw [hsplit] at hrow
    simpa [Except.toOption] using hrow
  · have hnone := List.all_eq_true.1 hallowed e he
    rw [Bool.not_eq_true', List.any_eq_false] at hnone
    exact hnone c hc

/-- The extent reaches to the cell without text, and the number is written out. -/
theorem ofWorkbook_toWorkbook_jotted :
    ∃ b, jotted.toWorkbook worksheetTitle = .ok b ∧
      ofWorkbook b none =
        .ok (ofTexts 5 3 (.ofList [("C1", " x "), ("A2", "=B3+1"), ("B3", "-1500")])) ∧
      ∃ d', Decimal.ofLiteral? "-1500" = some d' ∧ d'.toRat = Decimal.toRat ⟨true, 150, 1⟩ := by
  obtain ⟨b, rows, columns, cells, hb, ht, -, -, -, -, htexts⟩ :=
    ofWorkbook_toWorkbook isPlaceable_jotted
  have hvalue : (jotted.toWorkbook worksheetTitle >>= fun b => ofWorkbook b none) =
      .ok (ofTexts 5 3 (.ofList [("C1", " x "), ("A2", "=B3+1"), ("B3", "-1500")])) := by
    decide +kernel
  rw [hb] at hvalue
  have hretyped : retyped "-1.50e3" = "-1500" := by decide +kernel
  have hnumber := (htexts ("B3", "-1.50e3") (by decide +kernel)).2 ⟨true, 150, 1⟩
    (by decide +kernel) (by decide +kernel)
  rw [hretyped] at hnumber
  exact ⟨b, hb, hvalue, hnumber.2⟩

end Spreadsheet.Sheet
