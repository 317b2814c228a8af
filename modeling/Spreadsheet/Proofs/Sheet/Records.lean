import Spreadsheet.Proofs.Cell.Spelling
import Spreadsheet.Proofs.Csv.Limits
import Spreadsheet.Proofs.Decimal.Rounding
import Spreadsheet.Proofs.Sheet.Csv
import Spreadsheet.Proofs.Sheet.Deletion
import Spreadsheet.Proofs.Worksheet.Extent

/-!
# The sheets that comma-separated text is read as

Records need not have one length. The sheet that they are read as has a row for each record and the
columns of the widest of them, and its texts are the fields that are not empty, each under the name of
its position. So what is written for the sheet are the records, filled up with empty fields to the
width of the widest, and these are read as the same sheet: one reading settles a text.

## Main definitions

* `Sheet.fieldAt` — the field at a position.
* `Sheet.ofRecords` — the sheet of several records.

## Main statements

* `Sheet.get_ofRecords` — the texts of the sheet are the fields of the records.
* `Sheet.map_fields_ofRecords` — its rows are the records, filled up to one width.
* `Sheet.ofCsv_settles` — the sheet of a text is read from the text of the sheet.
-/

namespace Spreadsheet.Sheet

open CellName (spell split ofPosition)

variable {s : Sheet} {records : List (List String)} {fields : List String} {name text : String}
  {i j n : Nat}

/-! ## Fields -/

/-- The field at a position, which is empty if there is none. -/
def fieldAt (records : List (List String)) (i j : Nat) : String :=
  (records[i]?.getD [])[j]?.getD ""

theorem lt_of_fieldAt_ne (h : fieldAt records i j ≠ "") :
    i < records.length ∧ ∃ fields ∈ records, j < fields.length := by
  unfold fieldAt at h
  by_cases hi : i < records.length
  · rw [List.getElem?_eq_getElem hi, Option.getD_some] at h
    refine ⟨hi, _, List.getElem_mem hi, Nat.not_le.1 fun hj => h ?_⟩
    rw [List.getElem?_eq_none hj]
    rfl
  · rw [List.getElem?_eq_none (Nat.not_lt.1 hi)] at h
    exact absurd rfl h

/-- The names of the fields that are not empty are those of their positions. -/
theorem mem_filledFields : (name, text) ∈ filledFields records ↔
    text ≠ "" ∧ ∃ i j : Nat, fieldAt records i j = text ∧ spell (i + 1) (j + 1) = name := by
  simp only [filledFields, List.mem_flatMap, List.mem_filterMap, Prod.exists,
    List.mk_mem_zipIdx_iff_le_and_getElem?_sub]
  constructor
  · rintro ⟨fields, row, ⟨hrow, hfields⟩, field, column, ⟨hcolumn, hfield⟩, hcell⟩
    split at hcell
    · cases hcell
    next hfilled =>
      obtain ⟨rfl, rfl⟩ := Prod.mk.inj (Option.some.inj hcell)
      refine ⟨hfilled, row - 1, column - 1, by simp [fieldAt, hfields, hfield], ?_⟩
      congr 1 <;> omega
  · rintro ⟨hfilled, i, j, rfl, rfl⟩
    obtain ⟨hi, -⟩ := lt_of_fieldAt_ne hfilled
    have hj : (records[i])[j]? = some (fieldAt records i j) := by
      unfold fieldAt at hfilled ⊢
      rw [List.getElem?_eq_getElem hi] at hfilled ⊢
      cases hfield : (records[i])[j]? <;> simp_all
    exact ⟨records[i], i + 1, by simp [hi], _, j + 1, ⟨by omega, hj⟩, if_neg hfilled⟩

/-! ## The sheet of several records -/

/-- The sheet of several records: a row for each of them, and the columns of the widest. -/
def ofRecords (records : List (List String)) : Sheet :=
  ofTexts records.length (widest records) (.ofList (filledFields records))

theorem widest_le_iff : widest records ≤ n ↔ ∀ fields ∈ records, fields.length ≤ n := by
  rw [widest, foldl_max_le]
  simp

theorem length_le_widest (h : fields ∈ records) : fields.length ≤ widest records :=
  widest_le_iff.1 (Nat.le_refl _) fields h

/-- What a text is read as depends on its records only. -/
theorem eq_ofRecords_of_ofCsv (h : ofCsv text = .ok s) (hlast : s.columns ≤ Column.last) :
    s = ofRecords (Csv.read text).records ∧ widest (Csv.read text).records ≤ Column.last := by
  simp only [ofCsv] at h
  cases hcells : recordCells (Csv.read text).records with
  | error e =>
    rw [hcells] at h
    cases h
  | ok cells =>
    rw [hcells] at h
    cases herror : (Csv.read text).error? with
    | some e =>
      rw [herror] at h
      cases h
    | none =>
      rw [herror] at h
      obtain rfl := Except.ok.inj h
      have hwidest : widest (Csv.read text).records ≤ Column.last := Int.ofNat_le.1 hlast
      rw [recordCells_eq (widest_le_iff.1 hwidest)] at hcells
      obtain rfl := Except.ok.inj hcells
      exact ⟨rfl, hwidest⟩

theorem entries_ofRecords (hlast : widest records ≤ Column.last) :
    (ofRecords records).cells.entries = filledFields records :=
  OrderedMap.entries_ofList (nodup_filledFields (widest_le_iff.1 hlast))

/-- The texts of the sheet are the fields of the records, wherever they have fields. -/
theorem get_ofRecords (hlast : widest records ≤ Column.last) (hj : j < Column.last) :
    (ofRecords records).get (spell (i + 1) (j + 1)) = fieldAt records i j := by
  have hupper : Text.upper (spell (i + 1) (j + 1)) = spell (i + 1) (j + 1) :=
    CellName.upper_spell (i + 1) (j + 1)
  have hcell : ∀ text, (ofRecords records).cells.get? (spell (i + 1) (j + 1)) = some text ↔
      text ≠ "" ∧ fieldAt records i j = text := by
    intro text
    rw [OrderedMap.get?_eq_some, entries_ofRecords hlast, mem_filledFields]
    refine and_congr_right fun hfilled => ⟨?_, fun h => ⟨i, j, h, rfl⟩⟩
    rintro ⟨i', j', rfl, hname⟩
    obtain ⟨-, fields, hfields, hlt⟩ := lt_of_fieldAt_ne hfilled
    have hle := widest_le_iff.1 hlast fields hfields
    have hsame := CellName.spell_inj (by omega) (by omega) (by omega) (by omega) (by omega)
      (by omega) hname
    obtain ⟨rfl, rfl⟩ : i' = i ∧ j' = j := by omega
    rfl
  rw [get, text?, hupper]
  by_cases hfilled : fieldAt records i j = ""
  · have hnone : (ofRecords records).cells.get? (spell (i + 1) (j + 1)) = none := by
      rw [Option.eq_none_iff_forall_ne_some]
      rintro text h
      obtain ⟨hne, heq⟩ := (hcell text).1 h
      exact hne (heq.symm.trans hfilled)
    rw [hnone, hfilled]
    rfl
  · rw [(hcell _).2 ⟨hfilled, rfl⟩]
    rfl

/-! ## Filled up records -/

/-- The rows of the sheet are the records, filled up with empty fields to the width of the widest. -/
theorem map_fields_ofRecords (hlast : widest records ≤ Column.last) :
    (upTo (ofRecords records).rows).map (ofRecords records).fields =
      records.map (List.rightpad (widest records) "") := by
  refine List.ext_getElem (by simp [upTo, ofRecords, ofTexts]) fun i hi hi' => ?_
  rw [List.length_map] at hi'
  have hwidth := length_le_widest (List.getElem_mem hi')
  refine List.ext_getElem (by simp [length_fields, ofRecords, ofTexts, hwidth]) fun j hj hj' => ?_
  have hj : j < widest records := by simpa [length_fields, ofRecords, ofTexts] using hj
  have hget := get_ofRecords (i := i) hlast (Nat.lt_of_lt_of_le hj hlast)
  simp only [List.getElem_map, fields, upTo, List.getElem_range, hget]
  simp only [fieldAt, List.rightpad, List.getElem_append, List.getElem?_eq_getElem hi',
    Option.getD_some, List.getElem_replicate]
  by_cases hfield : j < records[i].length
  · simp [hfield]
  · simp [hfield]

/-- Empty fields fill no cell. -/
theorem filledFields_rightpad (records : List (List String)) (n : Nat) :
    filledFields (records.map (List.rightpad n "")) = filledFields records := by
  rw [filledFields, List.zipIdx_map, List.flatMap_map]
  refine List.flatMap_congr ?_
  rintro ⟨fields, row⟩ -
  simp only [Prod.map, List.rightpad, List.zipIdx_append, List.filterMap_append]
  have hempty : ((List.replicate (n - fields.length) "").zipIdx (1 + fields.length)).filterMap
      (fun e => if e.1 = "" then none else some (spell row e.2, e.1)) = [] := by
    refine List.filterMap_eq_nil_iff.2 fun e he => if_pos ?_
    exact List.eq_of_mem_replicate (List.fst_mem_of_mem_zipIdx he)
  exact (congrArg _ hempty).trans (List.append_nil _)

theorem widest_rightpad (records : List (List String)) :
    widest (records.map (List.rightpad (widest records) "")) = widest records := by
  by_cases hne : records = []
  · subst hne
    rfl
  · refine widest_eq (by simpa using hne) fun fields hfields => ?_
    obtain ⟨record, hrecord, rfl⟩ := List.mem_map.1 hfields
    have hwidth := length_le_widest hrecord
    rw [List.length_rightpad]
    omega

/-- The filled up records are read as the same sheet. -/
theorem ofRecords_rightpad (records : List (List String)) :
    ofRecords (records.map (List.rightpad (widest records) "")) = ofRecords records := by
  rw [ofRecords, filledFields_rightpad, widest_rightpad, List.length_map]
  rfl

/-! ## Reading again -/

/-- The text of the sheet is read as the sheet, if the records could have been written. -/
theorem ofCsv_toCsv_ofRecords (hlast : widest records ≤ Column.last)
    (hrecords : ∀ fields ∈ records, Csv.IsWithinLimit fields) :
    ∃ text, (ofRecords records).toCsv = .ok text ∧ ofCsv text = .ok (ofRecords records) := by
  refine ⟨_, toCsv_eq (Int.ofNat_le.2 hlast), ?_⟩
  rw [map_fields_ofRecords hlast]
  have hpadded : ∀ fields ∈ records.map (List.rightpad (widest records) ""), fields ≠ [] ∧
      fields.length ≤ Column.last ∧ ∀ text ∈ fields, text.length ≤ Csv.fieldLimit := by
    intro fields hfields
    obtain ⟨record, hrecord, rfl⟩ := List.mem_map.1 hfields
    obtain ⟨hne, hsize⟩ := hrecords record hrecord
    have hwidth := length_le_widest hrecord
    refine ⟨by simp [List.rightpad, hne], ?_, fun text htext => ?_⟩
    · rw [List.length_rightpad]
      omega
    · obtain htext | htext := List.mem_append.1 htext
      · exact hsize text htext
      · simp [List.eq_of_mem_replicate htext]
  rw [ofCsv_write hpadded]
  exact congrArg Except.ok (ofRecords_rightpad records)

/-- The texts of the sheet are not empty and stored under the names of cells of its grid. -/
theorem exists_position_of_mem_ofRecords (hlast : widest records ≤ Column.last)
    (h : (name, text) ∈ (ofRecords records).cells.entries) :
    text ≠ "" ∧ ∃ row column : Nat,
      (ofRecords records).grid.holds row column ∧ ofPosition row column = .ok name := by
  rw [entries_ofRecords hlast] at h
  obtain ⟨hfilled, i, j, rfl, rfl⟩ := mem_filledFields.1 h
  obtain ⟨hi, fields, hfields, hj⟩ := lt_of_fieldAt_ne hfilled
  have hwidth := length_le_widest hfields
  refine ⟨hfilled, i + 1, j + 1, holds_iff.2 ⟨?_, ?_⟩,
    CellName.ofPosition_eq (by omega) (by omega)⟩
  · simp only [ofRecords, ofTexts]
    omega
  · simp only [ofRecords, ofTexts]
    omega

/-- Unless there are more rows than a name can tell, the names are read as those of their cells. -/
theorem isTidy_ofRecords (hlast : widest records ≤ Column.last)
    (hdigits : Decimal.digitCount records.length ≤ Text.digitLimit) :
    (ofRecords records).IsTidy := by
  intro k hk
  obtain ⟨e, he, rfl⟩ := List.mem_map.1 hk
  obtain ⟨-, row, column, hholds, hname⟩ := exists_position_of_mem_ofRecords hlast he
  obtain ⟨⟨hrow, hle⟩, hcolumn, hcolumns⟩ := holds_iff.1 hholds
  simp only [ofRecords, ofTexts] at hle hcolumns
  rw [CellName.ofPosition_eq hcolumn (by omega)] at hname
  have hdigits' : Decimal.digitCount row ≤ Text.digitLimit := by
    have hlimit : 0 < Text.digitLimit := by decide
    rw [Decimal.digitCount_le_iff hlimit] at hdigits ⊢
    omega
  have hsplit : split (spell row column) = .ok (row, column) :=
    CellName.split_spell (by omega) (by omega) hdigits'
  rw [← Except.ok.inj hname]
  exact ⟨row, column, hsplit, (CellName.isCanonical_iff hsplit).2 ⟨by omega, rfl⟩, hholds⟩

/-- The sheet that a text is read as, whatever stands in the text, has only texts that are not empty,
under the names of cells of its grid. It is read again from its own text, with the same rows and
columns and the same texts in the same order. -/
theorem ofCsv_settles (h : ofCsv text = .ok s) (hlast : s.columns ≤ Column.last) :
    (∀ e ∈ s.cells.entries, e.2 ≠ "" ∧
        ∃ row column : Nat, s.grid.holds row column ∧ ofPosition row column = .ok e.1) ∧
      (Decimal.digitCount s.rows.natAbs ≤ Text.digitLimit → s.IsTidy) ∧
      ∃ text', s.toCsv = .ok text' ∧ ofCsv text' = .ok s := by
  obtain ⟨rfl, hwidest⟩ := eq_ofRecords_of_ofCsv h hlast
  exact ⟨fun e => exists_position_of_mem_ofRecords hwidest, isTidy_ofRecords hwidest,
    ofCsv_toCsv_ofRecords hwidest (Csv.isWithinLimit_read text)⟩

/-- Stray quotation marks, lines without fields and of different lengths, and a quoted part that is
never closed. -/
def carelessText : String :=
  "a\"b,\"x\"y\r\n\r\n\n,\"\"\"\",c,\"\"\n\"open,\nz"

/-- They leave a sheet of three rows and four columns, which stays as it is. -/
theorem ofCsv_settles_carelessText :
    let s := ofTexts 3 4
      (.ofList [("A1", "a\"b"), ("B1", "xy"), ("B2", "\""), ("C2", "c"), ("A3", "open,\nz")])
    ofCsv carelessText = .ok s ∧ s.IsTidy ∧ ∃ text', s.toCsv = .ok text' ∧ ofCsv text' = .ok s := by
  intro s
  have hread : ofCsv carelessText = .ok s := by decide +kernel
  obtain ⟨-, htidy, hagain⟩ := ofCsv_settles hread (by decide +kernel)
  exact ⟨hread, htidy (by decide +kernel), hagain⟩

end Spreadsheet.Sheet
