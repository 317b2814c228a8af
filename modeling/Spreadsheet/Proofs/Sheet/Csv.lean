import Mathlib.Data.List.Nodup
import Spreadsheet.Proofs.Cell.Position
import Spreadsheet.Proofs.Csv.RoundTrip
import Spreadsheet.Sheet.Csv

/-!
# Sheets and comma-separated text

A sheet is written as one record for each row, with a field for each column, and read back as a
sheet of the same extent with the texts that are not empty. What is stored outside the grid, and
empty texts, are lost; nothing else is.

## Main definitions

* `Sheet.filledFields` — the fields of records that are not empty, with their names.
* `Sheet.filledCells` — the cells of the grid that are not empty.

## Main statements

* `Sheet.toCsv_eq` — the records of a sheet.
* `Sheet.ofCsv_write` — the sheet of records that were written.
* `Sheet.ofCsv_toCsv` — the sheet that is read from the text of a sheet.
-/

namespace Spreadsheet

/-! ## Lists -/

section Results

variable {ε α β : Type} {l : List α}

theorem mapM_eq_ok {f : α → Except ε β} {g : α → β} (h : ∀ a ∈ l, f a = .ok (g a)) :
    l.mapM f = .ok (l.map g) := by
  induction l with
  | nil => rfl
  | cons a l ih =>
    obtain ⟨ha, hl⟩ := List.forall_mem_cons.1 h
    rw [List.mapM_cons, ha, ih hl]
    rfl

theorem filterMapM_eq_ok {f : α → Except ε (Option β)} {g : α → Option β}
    (h : ∀ a ∈ l, f a = .ok (g a)) : l.filterMapM f = .ok (l.filterMap g) := by
  induction l with
  | nil => rfl
  | cons a l ih =>
    obtain ⟨ha, hl⟩ := List.forall_mem_cons.1 h
    rw [List.filterMapM_cons, ha, ih hl, List.filterMap_cons]
    cases g a <;> rfl

end Results

theorem pairwise_zipIdx {α : Type} (l : List α) (n : Nat) :
    (l.zipIdx n).Pairwise fun a b => a.2 ≠ b.2 := by
  rw [← List.pairwise_map, List.zipIdx_map_snd]
  exact List.nodup_range'

namespace Sheet

open CellName (spell ofPosition)

variable {s : Sheet} {n row column : Int} {α : Type}

/-! ## Rows and columns -/

theorem mem_upTo : row ∈ upTo n ↔ 1 ≤ row ∧ row ≤ n := by
  simp only [upTo, List.mem_map, List.mem_range]
  constructor
  · rintro ⟨i, hi, rfl⟩
    omega
  · rintro ⟨hpos, hle⟩
    exact ⟨(row - 1).toNat, by omega, by omega⟩

theorem nodup_upTo (n : Int) : (upTo n).Nodup :=
  List.Nodup.map (fun i j h => by omega) List.nodup_range

theorem upTo_ne_nil (h : 1 ≤ n) : upTo n ≠ [] :=
  List.ne_nil_of_mem (mem_upTo.2 ⟨Int.le_refl 1, h⟩)

theorem zipIdx_map_upTo (n : Int) (f : Int → α) :
    ((upTo n).map f).zipIdx 1 = (upTo n).map fun row => (f row, row.toNat) := by
  refine List.ext_getElem (by simp) fun i hi hi' => ?_
  simp [upTo]
  omega

/-! ## Writing -/

/-- The fields of a row: the texts of its cells. -/
def fields (s : Sheet) (row : Int) : List String :=
  (upTo s.columns).map fun column => s.get (spell row column)

theorem length_fields (s : Sheet) (row : Int) : (s.fields row).length = s.columns.toNat := by
  simp [fields, upTo]

theorem rowOf_eq (hlast : s.columns ≤ Column.last) {item : String → Except Error α}
    {g : String → α} (hitem : ∀ name, item name = .ok (g name)) :
    s.rowOf row item = .ok ((upTo s.columns).map fun column => g (spell row column)) := by
  have hcolumns : s.namedColumns = upTo s.columns := by
    rw [namedColumns, Int.min_eq_left hlast]
  have hitems : (s.namedColumns.mapM fun column => ofPosition row column >>= item) =
      .ok ((upTo s.columns).map fun column => g (spell row column)) := by
    rw [hcolumns]
    refine mapM_eq_ok fun column hcolumn => ?_
    obtain ⟨hpos, hle⟩ := mem_upTo.1 hcolumn
    rw [CellName.ofPosition_eq hpos (Int.le_trans hle hlast)]
    exact hitem _
  rw [rowOf, hitems]
  exact if_neg (by omega)

/-- A sheet is written with the fields of its rows. -/
theorem toCsv_eq (hlast : s.columns ≤ Column.last) :
    s.toCsv = .ok (Csv.write ((upTo s.rows).map s.fields)) := by
  have htable : (s.table fun name => .ok (s.get name)) = .ok ((upTo s.rows).map s.fields) :=
    mapM_eq_ok fun row _ => rowOf_eq hlast fun _ => rfl
  rw [toCsv, htable]
  rfl

/-! ## Reading -/

theorem rowCells_eq {row : Nat} {fields : List String} (hlast : fields.length ≤ Column.last) :
    rowCells row fields = .ok ((fields.zipIdx 1).filterMap fun (text, column) =>
      if text = "" then none else some (spell row column, text)) := by
  refine filterMapM_eq_ok fun (text, column) hmem => ?_
  obtain ⟨hpos, hlt, -⟩ := List.mem_zipIdx hmem
  dsimp only
  split
  · rfl
  · rw [CellName.ofPosition_eq (by omega) (by omega)]
    rfl

/-- The fields that are not empty, with the names of their positions, record by record. -/
def filledFields (records : List (List String)) : List (String × String) :=
  (records.zipIdx 1).flatMap fun (fields, row) =>
    (fields.zipIdx 1).filterMap fun (text, column) =>
      if text = "" then none else some (spell row column, text)

/-- The names of the fields that are not empty are different, since positions have different names. -/
theorem nodup_filledFields {records : List (List String)}
    (hlast : ∀ fields ∈ records, fields.length ≤ Column.last) :
    ((filledFields records).map Prod.fst).Nodup := by
  have hname : ∀ (row : Nat) (e : String × Nat) (cell : String × String),
      (if e.1 = "" then none else some (spell row e.2, e.1)) = some cell →
        cell.1 = spell row e.2 := by
    rintro row e cell h
    split at h <;> cases h
    rfl
  have hinj : ∀ fields ∈ records, ∀ fields' ∈ records, ∀ row row' : Nat,
      ∀ e ∈ fields.zipIdx 1, ∀ e' ∈ fields'.zipIdx 1, spell row e.2 = spell row' e'.2 →
        row = row' ∧ e.2 = e'.2 := by
    intro fields hfields fields' hfields' row row' e he e' he' h
    obtain ⟨hpos, hlt, -⟩ := List.mem_zipIdx he
    obtain ⟨hpos', hlt', -⟩ := List.mem_zipIdx he'
    have hle := hlast fields hfields
    have hle' := hlast fields' hfields'
    have hsame := CellName.spell_inj (by omega) (by omega) (by omega) (by omega) (by omega)
      (by omega) h
    omega
  rw [filledFields, List.Nodup, List.pairwise_map, List.pairwise_flatMap]
  refine ⟨fun a ha => ?_, (pairwise_zipIdx records 1).imp_of_mem fun {a a'} ha ha' hne => ?_⟩
  · have hfields := List.fst_mem_of_mem_zipIdx ha
    rw [List.pairwise_filterMap]
    refine (pairwise_zipIdx a.1 1).imp_of_mem fun {e e'} he he' hne cell hcell cell' hcell' h => ?_
    rw [hname _ e cell hcell, hname _ e' cell' hcell'] at h
    exact hne (hinj _ hfields _ hfields _ _ e he e' he' h).2
  · intro cell hcell cell' hcell' h
    obtain ⟨e, he, hcell⟩ := List.mem_filterMap.1 hcell
    obtain ⟨e', he', hcell'⟩ := List.mem_filterMap.1 hcell'
    rw [hname _ e cell hcell, hname _ e' cell' hcell'] at h
    exact hne (hinj _ (List.fst_mem_of_mem_zipIdx ha) _ (List.fst_mem_of_mem_zipIdx ha') _ _
      e he e' he' h).1

theorem recordCells_eq {records : List (List String)}
    (hlast : ∀ fields ∈ records, fields.length ≤ Column.last) :
    recordCells records = .ok (filledFields records) := by
  have hrows : ((records.zipIdx 1).mapM fun (fields, row) => rowCells row fields) =
      .ok ((records.zipIdx 1).map fun (fields, row) =>
        (fields.zipIdx 1).filterMap fun (text, column) =>
          if text = "" then none else some (spell row column, text)) :=
    mapM_eq_ok fun (fields, row) hmem => rowCells_eq (hlast _ (List.fst_mem_of_mem_zipIdx hmem))
  rw [recordCells, hrows, filledFields, List.flatMap_def]
  rfl

theorem widest_eq {records : List (List String)} {n : Nat} (hne : records ≠ [])
    (h : ∀ fields ∈ records, fields.length = n) : widest records = n := by
  have hstay : ∀ records : List (List String), (∀ fields ∈ records, fields.length = n) →
      records.foldl (fun n fields => max n fields.length) n = n := by
    intro records h
    induction records with
    | nil => rfl
    | cons fields records ih =>
      obtain ⟨hfields, hrecords⟩ := List.forall_mem_cons.1 h
      rw [List.foldl_cons, hfields, Nat.max_self, ih hrecords]
  obtain ⟨fields, records, rfl⟩ := List.exists_cons_of_ne_nil hne
  obtain ⟨hfields, hrecords⟩ := List.forall_mem_cons.1 h
  rw [widest, List.foldl_cons, hfields, Nat.zero_max, hstay records hrecords]

/-- Records that were written are read as a sheet with their number of rows and the columns of the
widest of them. -/
theorem ofCsv_write {records : List (List String)}
    (hrecords : ∀ fields ∈ records, fields ≠ [] ∧ fields.length ≤ Column.last ∧
      ∀ text ∈ fields, text.length ≤ Csv.fieldLimit) :
    ofCsv (Csv.write records) =
      .ok (ofTexts records.length (widest records) (.ofList (filledFields records))) := by
  have hread : Csv.read (Csv.write records) = ⟨records, none⟩ :=
    Csv.read_write fun fields hfields =>
      ⟨(hrecords fields hfields).1, (hrecords fields hfields).2.2⟩
  rw [ofCsv, hread, recordCells_eq fun fields hfields => (hrecords fields hfields).2.1]
  rfl

/-! ## Writing and reading -/

/-- The cells of the grid that are not empty, with their texts, row by row. -/
def filledCells (s : Sheet) : List (String × String) :=
  (upTo s.rows).flatMap fun row => (upTo s.columns).filterMap fun column =>
    match ofPosition row column with
    | .ok name => if s.get name = "" then none else some (name, s.get name)
    | .error _ => none

theorem filledCells_eq (hlast : s.columns ≤ Column.last) :
    s.filledCells = (upTo s.rows).flatMap fun row => (upTo s.columns).filterMap fun column =>
      if s.get (spell row column) = "" then none
      else some (spell row column, s.get (spell row column)) := by
  refine List.flatMap_congr fun row _ => List.filterMap_congr fun column hcolumn => ?_
  obtain ⟨hpos, hle⟩ := mem_upTo.1 hcolumn
  rw [CellName.ofPosition_eq hpos (Int.le_trans hle hlast)]

theorem mem_filledCells (hlast : s.columns ≤ Column.last) {name text : String} :
    (name, text) ∈ s.filledCells ↔ text ≠ "" ∧ s.get name = text ∧
      ∃ row ∈ upTo s.rows, ∃ column ∈ upTo s.columns, spell row column = name := by
  rw [filledCells_eq hlast]
  simp only [List.mem_flatMap, List.mem_filterMap]
  constructor
  · rintro ⟨row, hrow, column, hcolumn, hcell⟩
    split at hcell
    · cases hcell
    next hfilled =>
      obtain ⟨rfl, rfl⟩ := Prod.mk.inj (Option.some.inj hcell)
      exact ⟨hfilled, rfl, row, hrow, column, hcolumn, rfl⟩
  · rintro ⟨hfilled, rfl, row, hrow, column, hcolumn, rfl⟩
    exact ⟨row, hrow, column, hcolumn, if_neg hfilled⟩

/-- The cells that are not empty are the filled ones of the fields. -/
theorem zipIdx_fields (hlast : s.columns ≤ Column.last) :
    filledFields ((upTo s.rows).map s.fields) = s.filledCells := by
  rw [filledCells_eq hlast, filledFields, zipIdx_map_upTo, List.flatMap_map]
  refine List.flatMap_congr fun row hrow => ?_
  dsimp only
  rw [fields, zipIdx_map_upTo, List.filterMap_map]
  refine List.filterMap_congr fun column hcolumn => ?_
  have hrow : (row.toNat : Int) = row := by
    rw [mem_upTo] at hrow
    omega
  have hcolumn : (column.toNat : Int) = column := by
    rw [mem_upTo] at hcolumn
    omega
  simp only [Function.comp_apply, hrow, hcolumn]

theorem nodup_filledCells (hlast : s.columns ≤ Column.last) :
    (s.filledCells.map Prod.fst).Nodup := by
  rw [← zipIdx_fields hlast]
  refine nodup_filledFields fun fields hfields => ?_
  obtain ⟨row, -, rfl⟩ := List.mem_map.1 hfields
  rw [length_fields]
  omega

/-- The text of a sheet is read as a sheet with the same extent and the cells that are not empty. -/
theorem ofCsv_toCsv (s : Sheet) (hrows : 1 ≤ s.rows) (hcolumns : 1 ≤ s.columns)
    (hlast : s.columns ≤ Column.last)
    (hsize : ∀ e ∈ s.filledCells, e.2.length ≤ Csv.fieldLimit) :
    ∃ text cells, s.toCsv = .ok text ∧ ofCsv text = .ok (ofTexts s.rows s.columns cells) ∧
      cells.entries = s.filledCells := by
  refine ⟨_, .ofList s.filledCells, toCsv_eq hlast, ?_,
    OrderedMap.entries_ofList (nodup_filledCells hlast)⟩
  have hrecords : ∀ fields ∈ (upTo s.rows).map s.fields, fields ≠ [] ∧
      fields.length ≤ Column.last ∧ ∀ text ∈ fields, text.length ≤ Csv.fieldLimit := by
    intro fields hfields
    obtain ⟨row, hrow, rfl⟩ := List.mem_map.1 hfields
    refine ⟨List.ne_nil_of_length_pos ?_, ?_, fun text htext => ?_⟩
    · rw [length_fields]
      omega
    · rw [length_fields]
      omega
    · obtain ⟨column, hcolumn, rfl⟩ := List.mem_map.1 htext
      by_cases hempty : s.get (spell row column) = ""
      · simp [hempty]
      · exact hsize _ ((mem_filledCells hlast).2
          ⟨hempty, rfl, row, hrow, column, hcolumn, rfl⟩)
  have hwidest : widest ((upTo s.rows).map s.fields) = s.columns.toNat := by
    refine widest_eq (by simpa using upTo_ne_nil hrows) fun fields hfields => ?_
    obtain ⟨row, -, rfl⟩ := List.mem_map.1 hfields
    exact length_fields s row
  have hlength : ((upTo s.rows).map s.fields).length = s.rows.toNat := by
    simp [upTo]
  rw [ofCsv_write hrecords, hlength, hwidest, zipIdx_fields hlast, Int.toNat_of_nonneg (by omega),
    Int.toNat_of_nonneg (by omega)]

/-- A sheet with texts that need quotation marks, an empty row and a text outside its grid. -/
def quotations : Sheet :=
  ⟨3, 2, .ofList [("B1", "say \"a,b\""), ("A3", " two\r\nlines"), ("C1", "outside"), ("A1", "")],
    true, 7⟩

/-- The texts keep their quotation marks and line ends, and the grid its empty row. -/
theorem ofCsv_toCsv_quotations :
    quotations.filledCells = [("B1", "say \"a,b\""), ("A3", " two\r\nlines")] ∧
      ∃ text cells, quotations.toCsv = .ok text ∧ ofCsv text = .ok (ofTexts 3 2 cells) ∧
        cells.entries = quotations.filledCells := by
  have hfilled : quotations.filledCells =
      [("B1", "say \"a,b\""), ("A3", " two\r\nlines")] := by
    decide +kernel
  refine ⟨hfilled, ofCsv_toCsv quotations (by decide) (by decide) (by decide) ?_⟩
  rw [hfilled]
  decide +kernel

end Sheet

end Spreadsheet
