import Spreadsheet.Proofs.Grid.Dependence
import Spreadsheet.Proofs.Sheet.Workbook
import Spreadsheet.Proofs.Worksheet.Looking

/-!
# Worksheets and their sheets

The value of a cell can be asked of a worksheet or of the sheet of the worksheet. A worksheet finds a
cell by its position, however it is spelled, and a sheet by its name. Both say the same for the names
of positions, even if the sheet has left out an empty text. So a cell has the same value in both, or
fails with the same error, unless a text refers to a cell with zeros in front of the number of its row.

## Main definitions

* `CellName.hasLeadingZero` — names with a zero in front of the number of the row.
* `references` — the cells that a text refers to.
* `Worksheet.HasPlainReferences` — worksheets without references to such names.

## Main statements

* `Worksheet.entry_name` — a cell says the same in a worksheet and in its sheet.
* `Worksheet.exists_position_of_reaches` — references lead to the names of positions.
* `Sheet.value_ofWorksheet` — the value of a cell in the sheet of a worksheet.
-/

namespace Spreadsheet

open CellName (split spelling IsCanonical)
open Relation (ReflTransGen)

variable {w : Worksheet} {p : Position} {name text m n : String} {row column zeros : Nat}

/-! ## Names and references -/

namespace CellName

/-- Whether the number of the row of a name has a zero in front of it. -/
def hasLeadingZero (name : String) : Bool :=
  match name.toList.dropWhile fun c => !c.isDigit with
  | '0' :: _ :: _ => true
  | _ => false

theorem hasLeadingZero_spelling (h : 0 < zeros) : hasLeadingZero (spelling row column zeros []) := by
  obtain ⟨zeros, rfl⟩ := Nat.exists_eq_add_of_le' h
  obtain ⟨d, digits, hdigits⟩ := List.exists_cons_of_ne_nil
    (show List.replicate zeros '0' ++ Nat.toDigits 10 row ≠ [] by simp [Nat.toDigits_ne_nil])
  have hletters : ∀ c ∈ Column.letters column, (!c.isDigit) = true := by
    intro c hc
    have hcode := Column.isLetter_iff.1 (Column.isLetter_of_mem_letters hc)
    rw [Bool.not_eq_true', Bool.eq_false_iff, ne_eq, isDigit_iff]
    omega
  rw [hasLeadingZero, spelling, String.toList_ofList, List.append_nil,
    List.dropWhile_append_of_pos hletters, List.replicate_succ, List.cons_append, hdigits]
  rfl

/-- The spellings without zeros and line ends are the names of positions. -/
theorem exists_zeros_of_split (h : split name = .ok (row, column)) (hupper : Text.upper name = name)
    (hend : '\n' ∉ name.toList) : ∃ zeros, name = spelling row column zeros [] := by
  obtain ⟨-, zeros, final, hfinal, -, hname⟩ := split_eq_ok.1 h
  rw [hupper] at hname
  simp only [isAtEnd, Bool.or_eq_true, decide_eq_true_eq] at hfinal
  obtain rfl | rfl := hfinal
  · exact ⟨zeros, hname⟩
  · rw [hname, spelling, String.toList_ofList] at hend
    simp at hend

theorem IsCanonical.upper (h : IsCanonical name) : Text.upper name = name := by
  obtain ⟨row, column, hsplit, -⟩ := id h
  obtain ⟨-, rfl⟩ := (isCanonical_iff hsplit).1 h
  rw [← spelling_zero, upper_spelling rfl]

end CellName

/-- The cells that a text refers to. -/
def references (text : String) : List String :=
  (CellName.aliasTarget? text).toList ++
    match text.toList with
    | '=' :: body =>
      match tokenize (String.ofList body) with
      | .ok ts => (ts.filter (·.kind = .cell)).map Token.text
      | .error _ => []
    | _ => []

theorem refers_iff_mem : Refers text n ↔ n ∈ references text := by
  unfold Refers references
  rw [List.mem_append, Option.mem_toList]
  refine or_congr Iff.rfl ?_
  constructor
  · rintro ⟨body, ts, htext, hts, t, ht, hkind, rfl⟩
    simp only [htext, hts]
    exact List.mem_map_of_mem (List.mem_filter.2 ⟨ht, by simpa using hkind⟩)
  · intro hmem
    split at hmem
    next body htext =>
      split at hmem
      next ts hts =>
        obtain ⟨t, ht, rfl⟩ := List.mem_map.1 hmem
        obtain ⟨ht, hkind⟩ := List.mem_filter.1 ht
        exact ⟨body, ts, htext, hts, t, ht, by simpa using hkind, rfl⟩
      next => cases hmem
    next => cases hmem

/-- A text refers to cells by letters and digits in upper case. -/
theorem Refers.exists_toList_eq (h : Refers text n) :
    ∃ cs : List Char, (∀ c ∈ cs, c.isAlpha ∨ c.isDigit) ∧ n.toList = cs.map Char.toUpper := by
  obtain h | ⟨body, ts, -, hts, t, ht, hkind, rfl⟩ := h
  · obtain ⟨letters, digits, final, -, -, -, -, halpha, hdigit, rfl⟩ :=
      CellName.aliasTarget?_eq_some h
    exact ⟨letters ++ digits, fun c hc => (List.mem_append.1 hc).imp (halpha c) (hdigit c),
      String.toList_ofList⟩
  · obtain ⟨cs, hcs, htext⟩ := exists_upper_of_tokenize hts ht hkind
    have hascii : ∀ c ∈ cs, c.toNat < 0x80 := by
      intro c hc
      have hcode := hcs c hc
      rw [isAlpha_iff, isDigit_iff] at hcode
      omega
    refine ⟨cs, hcs, ?_⟩
    rw [htext, Text.upper, String.toList_ofList, String.toList_ofList, flatMap_upperChar hascii]

theorem Refers.newline_notMem (h : Refers text n) : '\n' ∉ n.toList := by
  obtain ⟨cs, hcs, htext⟩ := h.exists_toList_eq
  rw [htext, List.mem_map]
  rintro ⟨c, hc, hnewline⟩
  have hcode := hcs c hc
  have hupper := congrArg Char.toNat hnewline
  have hfeed : '\n'.toNat = 10 := rfl
  rw [isAlpha_iff, isDigit_iff] at hcode
  rw [toNat_toUpper] at hupper
  split at hupper <;> omega

namespace Worksheet

/-- Whether no text of a worksheet refers to a cell with a zero in front of the number of its row. -/
def HasPlainReferences (w : Worksheet) : Prop :=
  ∀ e ∈ w.values.entries, ∀ text, e.2.text? = some text → ∀ n, Refers text n →
    CellName.hasLeadingZero n = false

instance (w : Worksheet) : Decidable w.HasPlainReferences :=
  decidable_of_iff (∀ e ∈ w.values.entries, ∀ text ∈ e.2.text?, ∀ n ∈ references text,
    CellName.hasLeadingZero n = false) (by simp only [HasPlainReferences, refers_iff_mem]; rfl)

/-! ## What cells say -/

theorem hasCell_name (h : w.Covers p) : w.grid.HasCell p.name := by
  have hrow := p.one_le_row
  have hcolumn := p.one_le_column
  obtain ⟨hrows, hcolumns⟩ := h
  exact ⟨p.row, p.column, p.split_name, by omega, Int.ofNat_le.2 hrows, by omega,
    Int.ofNat_le.2 hcolumns⟩

/-- The text of a position in the grid of a worksheet. -/
theorem text?_name (h : w.Covers p) : w.grid.text? p.name = (w.valueAt p).text? := by
  have hcell := hasCell_name h
  obtain ⟨q, hsplit, -, htext⟩ := getText_of_hasCell hcell
  rw [p.split_name] at hsplit
  obtain ⟨hrow, hcolumn⟩ := Prod.mk.inj (Except.ok.inj hsplit)
  rw [getText_eq_text? hcell] at htext
  rw [Except.ok.inj htext, Position.ext_row_column hrow hcolumn]

/-- The texts of the grid are those of the values of the worksheet. -/
theorem exists_entry_of_text? (h : w.grid.text? name = some text) :
    ∃ e ∈ w.values.entries, e.2.text? = some text := by
  rw [grid] at h
  dsimp only at h
  unfold getText at h
  split at h
  · cases h
  split at h
  · cases h
  split at h
  · cases h
  next p _ =>
    obtain ⟨v, hv, htext⟩ := Sheet.exists_value_of_text? h
    exact ⟨(p, v), hv, htext⟩

theorem get?_name : (Sheet.ofWorksheet w).cells.get? p.name = Sheet.filledText? w p := by
  refine Option.ext fun text => ?_
  rw [OrderedMap.get?_eq_some, Sheet.mem_entries_ofWorksheet, Sheet.filledText?_eq_some, and_comm]
  refine and_congr_left fun _ => ⟨?_, fun h => ⟨p, rfl, h⟩⟩
  rintro ⟨q, hq, h⟩
  rwa [← Position.name_inj.1 hq]

/-- A cell says the same in a worksheet and in its sheet. -/
theorem entry_name (h : w.Covers p) :
    (Sheet.ofWorksheet w).grid.entry p.name = w.grid.entry p.name := by
  have htext : (Sheet.ofWorksheet w).grid.text? p.name = Sheet.filledText? w p := by
    rw [← get?_name, ← p.upper_name]
    exact Grid.text?_ofTexts_upper ..
  rw [Grid.entry, Grid.entry, htext, text?_name h, Sheet.filledText?]
  cases (w.valueAt p).text? with
  | none => rfl
  | some text =>
    by_cases hempty : text = ""
    · subst hempty
      rfl
    · rw [Option.filter_some_pos (by simpa using hempty)]

/-! ## Where references lead -/

/-- References lead from the name of a cell to the names of positions, or out of the grid. -/
theorem exists_position_of_reaches (hrefs : w.HasPlainReferences) (hname : IsCanonical name)
    (hm : ReflTransGen w.grid.RefersTo (Text.upper name) m) (hcell : w.grid.HasCell m) :
    ∃ p : Position, w.Covers p ∧ p.name = m := by
  obtain ⟨row, column, hsplit, hrow, hrows, hcolumn, hcolumns⟩ := hcell
  have hplain : m = spelling row column 0 [] := by
    cases hm with
    | refl =>
      rw [hname.upper] at hsplit ⊢
      rw [CellName.spelling_zero]
      exact ((CellName.isCanonical_iff hsplit).1 hname).2
    | tail hk hkm =>
      obtain ⟨text, htext, href⟩ := hkm
      obtain ⟨e, he, hvalue⟩ := exists_entry_of_text? htext
      have hzero := hrefs e he text hvalue m href
      obtain ⟨zeros, hzeros⟩ :=
        CellName.exists_zeros_of_split hsplit href.upper_eq_self href.newline_notMem
      obtain rfl | hpos := Nat.eq_zero_or_pos zeros
      · exact hzeros
      · rw [hzeros, CellName.hasLeadingZero_spelling hpos] at hzero
        cases hzero
  have hrows := Int.ofNat_le.1 hrows
  have hcolumns := Int.ofNat_le.1 hcolumns
  have hlast := Nat.le_trans hrows w.rows_le
  have hlast' := Nat.le_trans hcolumns w.columns_le
  refine ⟨⟨row, column, by omega, hlast, by omega, hlast'⟩, ⟨hrows, hcolumns⟩, ?_⟩
  rw [Position.name_eq_spelling, hplain]

end Worksheet

/-- A cell has the same value in a worksheet and in its sheet, or it fails there with the same error,
unless a text refers to a cell with a zero in front of the number of its row. -/
theorem Sheet.value_ofWorksheet (w : Worksheet) (hrefs : w.HasPlainReferences)
    (hname : IsCanonical name) : (Sheet.ofWorksheet w).value name = (w.resolve name).1 := by
  have hcells : ∀ m, ReflTransGen w.grid.RefersTo (Text.upper name) m → w.grid.HasCell m →
      (Sheet.ofWorksheet w).grid.entry m = w.grid.entry m := by
    intro m hm hcell
    obtain ⟨p, hp, rfl⟩ := Worksheet.exists_position_of_reaches hrefs hname hm hcell
    exact Worksheet.entry_name hp
  rw [Worksheet.resolve_eq]
  exact congrArg Traced.outcome (Grid.resolveBelow_congr_entry (Sheet.rows_ofWorksheet w)
    (Sheet.columns_ofWorksheet w) hcells)

/-- An integer, two formulas and a text without characters. -/
def Worksheet.account : Worksheet :=
  ⟨"Sheet", .ofList [(⟨1, 1, by decide, by decide, by decide, by decide⟩, .integer 7),
    (⟨1, 2, by decide, by decide, by decide, by decide⟩, .text "=a1 * 2 + c1"),
    (⟨1, 3, by decide, by decide, by decide, by decide⟩, .text ""),
    (⟨2, 1, by decide, by decide, by decide, by decide⟩, .text "=B1")], []⟩

/-- The text without characters counts as zero in both. -/
theorem Sheet.value_ofWorksheet_account :
    Worksheet.account.HasPlainReferences ∧ IsCanonical "A2" ∧
      (Sheet.ofWorksheet Worksheet.account).value "A2" = .ok (.decimal (.ofNat 14)) ∧
      (Worksheet.account.resolve "A2").1 = .ok (.decimal (.ofNat 14)) := by
  have hrefs : Worksheet.account.HasPlainReferences := by decide +kernel
  have hname : IsCanonical "A2" := ⟨2, 1, by decide +kernel⟩
  have hvalue : (Sheet.ofWorksheet Worksheet.account).value "A2" = .ok (.decimal (.ofNat 14)) := by
    decide +kernel
  exact ⟨hrefs, hname, hvalue, (Sheet.value_ofWorksheet _ hrefs hname).symm.trans hvalue⟩

end Spreadsheet
