import Mathlib.Algebra.Group.Nat.Defs
import Spreadsheet.Proofs.Cell.Name
import Spreadsheet.Proofs.Text.Integer
import Spreadsheet.Proofs.Xml.Element
import Spreadsheet.Sheet.Xml

/-!
# Sheets and documents

A sheet is written with its extent and one record for each stored cell, and read back as a sheet of
the same extent with the same cells in their order. Only a border with more digits than are read is
lost, and then nothing is read.

## Main definitions

* `CellName.IsCapital` — names that are kept as they are.
* `Sheet.readBack` — what is read of a border.

## Main statements

* `Sheet.exists_record` — the record that is read for a cell.
* `Sheet.ofXml_toXml_of_isClean` — what is read from the document of a sheet.
* `Sheet.ofXml_toXml` — the sheet that is read from the document of a sheet.
-/

namespace Spreadsheet

open Xml (Element Writes IsClean IsPlainName)

/-! ## Names -/

/-- Whether a name consists of upper-case letters and digits of ASCII and is not empty. -/
def CellName.IsCapital (name : String) : Prop :=
  name ≠ "" ∧ ∀ c ∈ name.toList, Column.isLetter c ∨ c.isDigit

namespace CellName.IsCapital

variable {name : String}

instance (name : String) : Decidable (IsCapital name) :=
  decidable_of_iff (name ≠ "" ∧ name.toList.all fun c => Column.isLetter c || c.isDigit)
    (by simp [IsCapital])

theorem toNat_mem (h : IsCapital name) : ∀ c ∈ name.toList, 0x30 ≤ c.toNat ∧ c.toNat ≤ 0x5a := by
  intro c hc
  have hkind := h.2 c hc
  rw [Column.isLetter_iff, isDigit_iff] at hkind
  omega

theorem isClean (h : IsCapital name) : IsClean name.toList := by
  refine Xml.isClean_of_ascii fun c hc => ?_
  have hcode := h.toNat_mem c hc
  omega

end CellName.IsCapital

namespace Sheet

open CellName (IsCapital)

variable {s : Sheet} {root : Element} {name text : String} {n : Int}

/-! ## Borders -/

/-- What is read of a border: it is an error if it has too many digits. -/
def readBack (name : String) (n : Int) : Except Error Int :=
  if Text.digitLimit < Decimal.digitCount n.natAbs then .error (.invalidCount name (Text.ofInt n))
  else .ok n

theorem ofInt_ne_empty (n : Int) : Text.ofInt n ≠ "" := by
  have hdigits : Nat.toDigits 10 n.natAbs ≠ [] := Nat.toDigits_ne_nil
  simp [Text.ofInt, hdigits]

theorem isClean_ofInt (n : Int) : IsClean (Text.ofInt n).toList := by
  refine Xml.isClean_of_ascii fun c hc => ?_
  have hc := Text.isWritten_of_mem_ofInt hc
  simp only [Numeral.isWritten, Bool.or_eq_true, decide_eq_true_eq, List.mem_cons, List.not_mem_nil,
    or_false] at hc
  obtain hc | rfl | rfl | rfl | rfl := hc
  · have hcode := isDigit_iff.1 hc
    omega
  all_goals decide

theorem countOf_eq (h : root.child? name = some (.node name (Text.ofInt n) [])) :
    countOf root name = readBack name n := by
  have htext : (root.child? name).map Element.text = some (Text.ofInt n) := by
    rw [h]
    rfl
  unfold countOf readBack
  rw [htext]
  split
  next heq => cases heq
  next heq => exact absurd (Option.some.inj heq) (ofInt_ne_empty n)
  next text _ heq =>
    obtain rfl := Option.some.inj heq
    rw [Text.toInt?_ofInt]
    by_cases hdigits : Text.digitLimit < Decimal.digitCount n.natAbs
    · rw [if_pos hdigits, if_pos hdigits]
    · rw [if_neg hdigits, if_neg hdigits]

/-! ## Records -/

/-- What is read of a stored cell: its name, which is put in order, and its text. Of a cell whose name
is empty nothing is read. -/
def readCell? (e : String × String) : Option (String × String) :=
  if e.1 = "" then none else some (Text.upper (Text.trim e.1), e.2)

/-- The record of a cell is read as what is read of the cell. -/
theorem exists_record (name text : String) :
    ∃ record, Writes (recordXml name text) record ∧ recordOf? record = readCell? (name, text) := by
  have hparts : List.Forall₂ Writes [Xml.leaf "Name" name, Xml.leaf "Value" text]
      [.node "Name" name [], .node "Value" text []] :=
    .cons (Xml.writes_leaf (by decide) name) (.cons (Xml.writes_leaf (by decide) text) .nil)
  have hplain : IsPlainName "CellRecord".toList := by decide
  obtain ⟨between, hrecord⟩ := Xml.exists_writes_group hplain hparts 2
  refine ⟨_, hrecord, ?_⟩
  have hchild : ((Element.node "CellRecord" between
      [.node "Name" name [], .node "Value" text []]).child? "Name").map Element.text = some name :=
    rfl
  unfold recordOf? readCell?
  rw [hchild]
  split
  next heq => cases heq
  next heq => exact (if_pos (Option.some.inj heq)).symm
  next hne heq =>
    obtain rfl := Option.some.inj heq
    exact (if_neg hne).symm

theorem exists_records (entries : List (String × String)) :
    ∃ records, List.Forall₂ Writes (entries.map fun e => recordXml e.1 e.2) records ∧
      records.filterMap recordOf? = entries.filterMap readCell? := by
  induction entries with
  | nil => exact ⟨[], .nil, rfl⟩
  | cons e entries ih =>
    obtain ⟨record, hrecord, hread⟩ := exists_record e.1 e.2
    obtain ⟨records, hrecords, hreads⟩ := ih
    refine ⟨record :: records, .cons hrecord hrecords, ?_⟩
    rw [List.filterMap_cons, List.filterMap_cons, hread, hreads]

theorem isClean_recordXml (hname : IsClean name.toList) (htext : IsClean text.toList) :
    IsClean (recordXml name text) := by
  refine Xml.isClean_group (by decide) fun s hs => ?_
  obtain rfl | hs := List.mem_cons.1 hs
  · exact Xml.isClean_leaf (by decide) hname
  · obtain rfl := List.mem_singleton.1 hs
    exact Xml.isClean_leaf (by decide) htext

/-! ## Sheets -/

variable {rows columns : Int} {entries : List (String × String)}

/-- The root of a document with borders and stored cells. -/
def rootOf (rows columns : Int) (entries : List (String × String)) : List Char :=
  Xml.group 0 "SavedData" [
    Xml.leaf "Rows" (Text.ofInt rows),
    Xml.leaf "Cols" (Text.ofInt columns),
    Xml.group 1 "Cells" (entries.map fun e => recordXml e.1 e.2)]

/-- The root of the document of a sheet. -/
def rootXml (s : Sheet) : List Char :=
  rootOf s.rows s.columns s.cells.entries

/-- The root is read with the borders and with the records of the cells. -/
theorem exists_root {records : List Element}
    (h : List.Forall₂ Writes (entries.map fun e => recordXml e.1 e.2) records) :
    ∃ root, Writes (rootOf rows columns entries) root ∧ root.name = "SavedData" ∧
      root.child? "Rows" = some (.node "Rows" (Text.ofInt rows) []) ∧
      root.child? "Cols" = some (.node "Cols" (Text.ofInt columns) []) ∧
      (root.child? "Cells").map Element.children = some records := by
  have hcells : IsPlainName "Cells".toList := by decide
  obtain ⟨text, hcells⟩ := Xml.exists_writes_group hcells h 1
  have hparts : List.Forall₂ Writes _ _ :=
    .cons (Xml.writes_leaf (show IsPlainName "Rows".toList by decide) (Text.ofInt rows))
      (.cons (Xml.writes_leaf (show IsPlainName "Cols".toList by decide) (Text.ofInt columns))
        (.cons hcells .nil))
  have hroot : IsPlainName "SavedData".toList := by decide
  obtain ⟨text', hroot⟩ := Xml.exists_writes_group hroot hparts 0
  exact ⟨_, hroot, rfl, rfl, rfl, rfl⟩

theorem isClean_rootOf (hentries : ∀ e ∈ entries, IsClean e.1.toList ∧ IsClean e.2.toList) :
    IsClean (rootOf rows columns entries) := by
  have hrecords : ∀ record ∈ entries.map fun e => recordXml e.1 e.2, IsClean record := by
    intro record hrecord
    obtain ⟨e, he, rfl⟩ := List.mem_map.1 hrecord
    exact isClean_recordXml (hentries e he).1 (hentries e he).2
  refine Xml.isClean_group (by decide) (List.forall_mem_cons.2 ⟨?_, List.forall_mem_cons.2 ⟨?_,
    List.forall_mem_singleton.2 ?_⟩⟩)
  · exact Xml.isClean_leaf (by decide) (isClean_ofInt rows)
  · exact Xml.isClean_leaf (by decide) (isClean_ofInt columns)
  · exact Xml.isClean_group (by decide) hrecords

/-- What is read from a document with stored cells, if its borders can be read. -/
theorem ofXml_document (rows columns : Int)
    (hentries : ∀ e ∈ entries, IsClean e.1.toList ∧ IsClean e.2.toList) :
    ofXml (Xml.document (rootOf rows columns entries)) = do
      let rows ← readBack "Rows" rows
      let columns ← readBack "Cols" columns
      return ⟨ofTexts rows columns (.ofList (entries.filterMap readCell?)),
        entries.length - (entries.filterMap readCell?).length⟩ := by
  obtain ⟨records, hrecords, hread⟩ := exists_records entries
  obtain ⟨root, hroot, hname, hrows, hcolumns, hcells⟩ := exists_root hrecords
  have hdocument : Xml.read? (Xml.document (rootOf rows columns entries)) = some root :=
    Xml.read?_document hroot (isClean_rootOf hentries)
  have hlength : records.length = entries.length := by
    simp [← hrecords.length_eq]
  unfold ofXml
  simp only [hdocument, hname, ne_eq, not_true_eq_false, if_false, countOf_eq hrows,
    countOf_eq hcolumns, hcells, Option.getD_some, hread, hlength]

/-- What is read from the document of a sheet: its cells under names that are put in order, if its
borders can be read. -/
theorem ofXml_toXml_of_isClean (hnames : ∀ e ∈ s.cells.entries, e.1 ≠ "" ∧ IsClean e.1.toList)
    (htexts : ∀ e ∈ s.cells.entries, IsClean e.2.toList) :
    ofXml s.toXml = do
      let rows ← readBack "Rows" s.rows
      let columns ← readBack "Cols" s.columns
      return ⟨ofTexts rows columns
        (.ofList (s.cells.entries.map fun e => (Text.upper (Text.trim e.1), e.2))), 0⟩ := by
  have hread : s.cells.entries.filterMap readCell? =
      s.cells.entries.map fun e => (Text.upper (Text.trim e.1), e.2) := by
    rw [← List.filterMap_eq_map']
    exact List.filterMap_congr fun e he => if_neg (hnames e he).1
  have hdocument := ofXml_document s.rows s.columns fun e he =>
    ⟨(hnames e he).2, htexts e he⟩
  rw [hread, List.length_map, Nat.sub_self] at hdocument
  exact hdocument

end Sheet

end Spreadsheet
