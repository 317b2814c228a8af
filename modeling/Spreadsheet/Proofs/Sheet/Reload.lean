import Spreadsheet.Proofs.Sheet.Names
import Spreadsheet.Proofs.Sheet.Xml
import Spreadsheet.Proofs.Xml.LineEnd

/-!
# Loading what was saved

Every sheet is written, but a document with a character that documents may not hold is not read. The
texts of a sheet may have such characters; the names of its cells may not. So what was saved can be
loaded if and only if the texts are free of them, apart from borders that are too long to be read.
What is loaded has line feeds at the ends of its lines and the names of its cells in order.

## Main definitions

* `Sheet.IsWritable` — sheets whose texts a document may hold.

## Main statements

* `Sheet.ofXml_toXml_withLineFeeds` — line ends do not matter for what is loaded.
* `Sheet.ofXml_toXml_of_names` — what is loaded from the document of a sheet.
* `Sheet.loads_iff_isWritable` — when a sheet that was edited can be loaded.
* `Sheet.loads_iff_isWritable_control` — a sheet that cannot.
-/

namespace Spreadsheet

open Text (Normalizes lineFeeds)
open Xml (IsClean)

variable {c : Char} {name text : String}

namespace Sheet

open CellName (split)

variable {s : Sheet} {edits : List Edit}

/-! ## Texts that a document may hold -/

/-- Whether a document may hold all characters of the stored texts. -/
def IsWritable (s : Sheet) : Prop :=
  ∀ e ∈ s.cells.entries, ∀ c ∈ e.2.toList, Xml.isAllowed c

instance (s : Sheet) : Decidable s.IsWritable :=
  decidable_of_iff (s.cells.entries.all fun e => e.2.toList.all Xml.isAllowed)
    (by simp [IsWritable])

theorem mem_rootXml {e : String × String} (he : e ∈ s.cells.entries) (hc : c ∈ e.2.toList)
    (hplain : c ≠ '&' ∧ c ≠ '<' ∧ c ≠ '>') : c ∈ s.rootXml := by
  have hrecord : c ∈ recordXml e.1 e.2 :=
    Xml.mem_group (List.mem_cons_of_mem _ (List.mem_singleton_self _)) (Xml.mem_leaf hc hplain) 2
  have hcells : c ∈ Xml.group 1 "Cells" (s.cells.entries.map fun e => recordXml e.1 e.2) :=
    Xml.mem_group (List.mem_map_of_mem he) hrecord 1
  exact Xml.mem_group (List.mem_cons_of_mem _ (List.mem_cons_of_mem _ (List.mem_singleton_self _)))
    hcells 0

/-- The document of a sheet with other texts is not read. -/
theorem ofXml_toXml_of_not_isWritable (h : ¬ s.IsWritable) :
    ofXml s.toXml = .error .malformedXml := by
  obtain ⟨e, he, c, hc, hnot⟩ : ∃ e ∈ s.cells.entries, ∃ c ∈ e.2.toList, ¬ Xml.isAllowed c := by
    simpa [IsWritable] using h
  have hplain : c ≠ '&' ∧ c ≠ '<' ∧ c ≠ '>' := by
    refine ⟨?_, ?_, ?_⟩ <;> rintro rfl <;> exact hnot (by decide)
  have hnone : Xml.read? s.toXml = none :=
    Xml.read?_document_eq_none (mem_rootXml he hc hplain) (by simpa using hnot)
  rw [ofXml, hnone]

/-! ## Line ends -/

/-- The sheet with a line feed at the end of each line of its texts. -/
def withLineFeeds (s : Sheet) : Sheet :=
  { s with cells := s.cells.mapValues lineFeeds }

theorem entries_withLineFeeds (s : Sheet) :
    s.withLineFeeds.cells.entries = s.cells.entries.map fun e => (e.1, lineFeeds e.2) :=
  rfl

/-- A stored cell with line feeds at the ends of its lines. -/
def endLines (e : String × String) : String × String :=
  (lineFeeds e.1, lineFeeds e.2)

theorem normalizes_recordXml (name text : String) :
    Normalizes (recordXml name text) (recordXml (lineFeeds name) (lineFeeds text)) :=
  Xml.normalizes_group (by decide) (.cons (Xml.normalizes_leaf (by decide) name)
    (.cons (Xml.normalizes_leaf (by decide) text) .nil)) 2

theorem normalizes_rootOf (rows columns : Int) (entries : List (String × String)) :
    Normalizes (rootOf rows columns entries) (rootOf rows columns (entries.map endLines)) := by
  have hrows : IsClean (Xml.leaf "Rows" (Text.ofInt rows)) :=
    Xml.isClean_leaf (by decide) (isClean_ofInt rows)
  have hcolumns : IsClean (Xml.leaf "Cols" (Text.ofInt columns)) :=
    Xml.isClean_leaf (by decide) (isClean_ofInt columns)
  have hrecords : List.Forall₂ Normalizes (entries.map fun e => recordXml e.1 e.2)
      ((entries.map endLines).map fun e => recordXml e.1 e.2) := by
    rw [List.map_map, List.forall₂_map_left_iff, List.forall₂_map_right_iff, List.forall₂_same]
    exact fun e _ => normalizes_recordXml e.1 e.2
  refine Xml.normalizes_group (by decide) (.cons hrows.normalizes (.cons hcolumns.normalizes
    (.cons ?_ .nil))) 0
  exact Xml.normalizes_group (by decide) hrecords 1

/-- What is read from a document is what would be read if all lines ended with line feeds. -/
theorem ofXml_document_endLines (rows columns : Int) (entries : List (String × String)) :
    ofXml (Xml.document (rootOf rows columns (entries.map endLines))) =
      ofXml (Xml.document (rootOf rows columns entries)) := by
  rw [ofXml, ofXml, Xml.read?_congr_of_normalizes (normalizes_rootOf rows columns entries)]

theorem endLines_endLines (e : String × String) : endLines (e.1, lineFeeds e.2) = endLines e := by
  simp only [endLines, lineFeeds, String.toList_ofList, Text.normalizeLines_normalizeLines]

/-- What is loaded is what would be loaded if all texts had line feeds. -/
theorem ofXml_toXml_withLineFeeds (s : Sheet) : ofXml s.withLineFeeds.toXml = ofXml s.toXml := by
  have hentries : s.withLineFeeds.cells.entries.map endLines = s.cells.entries.map endLines := by
    rw [entries_withLineFeeds, List.map_map]
    exact List.map_congr_left fun e _ => endLines_endLines e
  calc ofXml s.withLineFeeds.toXml
      = ofXml (Xml.document (rootOf s.rows s.columns
          (s.withLineFeeds.cells.entries.map endLines))) := (ofXml_document_endLines _ _ _).symm
    _ = ofXml s.toXml := by rw [hentries, ofXml_document_endLines]; rfl

theorem isClean_lineFeeds (h : ∀ c ∈ text.toList, Xml.isAllowed c) :
    IsClean (lineFeeds text).toList := by
  intro c hc
  rw [lineFeeds, String.toList_ofList] at hc
  obtain ⟨hreturn, hc | rfl⟩ := Text.mem_normalizeLines hc
  · exact ⟨h c hc, hreturn⟩
  · exact ⟨by decide, hreturn⟩

/-! ## What is loaded -/

/-- The cells of a sheet as they are loaded. -/
def loadedCells (s : Sheet) : CellTexts :=
  .ofList (s.cells.entries.map fun e => (Text.upper (Text.trim e.1), lineFeeds e.2))

/-- What is loaded from the document of a sheet: its cells, if its texts and its borders can be read.
-/
theorem ofXml_toXml_of_names (hnames : ∀ e ∈ s.cells.entries, e.1 ≠ "" ∧ IsClean e.1.toList) :
    ofXml s.toXml =
      if s.IsWritable then do
        let rows ← readBack "Rows" s.rows
        let columns ← readBack "Cols" s.columns
        return ⟨ofTexts rows columns s.loadedCells, 0⟩
      else .error .malformedXml := by
  by_cases hwritable : s.IsWritable
  · have hclean : ∀ e ∈ s.withLineFeeds.cells.entries, IsClean e.2.toList := by
      rw [entries_withLineFeeds]
      intro e' he'
      obtain ⟨e, he, rfl⟩ := List.mem_map.1 he'
      exact isClean_lineFeeds (hwritable e he)
    have hnames' : ∀ e ∈ s.withLineFeeds.cells.entries, e.1 ≠ "" ∧ IsClean e.1.toList := by
      rw [entries_withLineFeeds]
      intro e' he'
      obtain ⟨e, he, rfl⟩ := List.mem_map.1 he'
      exact hnames e he
    have hcells : (s.withLineFeeds.cells.entries.map fun e => (Text.upper (Text.trim e.1), e.2)) =
        s.cells.entries.map fun e => (Text.upper (Text.trim e.1), lineFeeds e.2) := by
      rw [entries_withLineFeeds, List.map_map]
      rfl
    rw [if_pos hwritable, ← ofXml_toXml_withLineFeeds,
      ofXml_toXml_of_isClean hnames' hclean, hcells]
    rfl
  · rw [if_neg hwritable, ofXml_toXml_of_not_isWritable hwritable]

/-- What was saved is loaded if the texts and both borders can be read. -/
theorem ofXml_toXml_eq_ok {loaded : Loaded}
    (hnames : ∀ e ∈ s.cells.entries, e.1 ≠ "" ∧ IsClean e.1.toList) :
    ofXml s.toXml = .ok loaded ↔
      (s.IsWritable ∧ Decimal.digitCount s.rows.natAbs ≤ Text.digitLimit ∧
        Decimal.digitCount s.columns.natAbs ≤ Text.digitLimit) ∧
      loaded = ⟨ofTexts s.rows s.columns s.loadedCells, 0⟩ := by
  rw [ofXml_toXml_of_names hnames]
  by_cases hwritable : s.IsWritable
  · rw [if_pos hwritable, readBack, readBack]
    by_cases hrows : Text.digitLimit < Decimal.digitCount s.rows.natAbs
    · simp [hrows, Nat.not_le.2 hrows, bind, Except.bind]
    · by_cases hcolumns : Text.digitLimit < Decimal.digitCount s.columns.natAbs
      · simp [hrows, hcolumns, Nat.not_le.2 hcolumns, bind, Except.bind]
      · simp [hrows, hcolumns, hwritable, Nat.not_lt.1 hrows, Nat.not_lt.1 hcolumns, bind,
          Except.bind, pure, Except.pure, eq_comm]
  · rw [if_neg hwritable]
    simp [hwritable]

/-! ## Edited sheets -/

/-- The names of an edited sheet are written and read without loss. -/
theorem isClean_of_mem_editAll (hs : s.cells = .empty) :
    ∀ e ∈ (s.editAll edits).cells.entries, e.1 ≠ "" ∧ IsClean e.1.toList := by
  intro e he
  obtain hempty | ⟨name, text, ⟨row, column⟩, -, hsplit, hname⟩ :=
    mem_keys_editAll (List.mem_map_of_mem he)
  · rw [hs] at hempty
    cases hempty
  obtain ⟨-, zeros, final, hend, -, hspelling⟩ := CellName.split_eq_ok.1 hsplit
  rw [hname, hspelling]
  refine ⟨CellName.spelling_ne_empty, fun c hc => ?_⟩
  obtain hletter | hdigit | rfl := CellName.mem_spelling hend hc
  · have hcode := Column.isLetter_iff.1 hletter
    exact Xml.isAllowed_of_ascii (by omega)
  · have hcode := isDigit_iff.1 hdigit
    exact Xml.isAllowed_of_ascii (by omega)
  · decide

/-- An empty sheet that is edited, by failing edits too, can be loaded after it was saved if and only
if a document may hold its texts and its borders have no more digits than are read. Other texts make
the document malformed. What is loaded has the extent of the sheet and all of its cells, with line
feeds in their texts, and no record is skipped. -/
theorem loads_iff_isWritable (rows columns : Int) (edits : List Edit) :
    let s := (ofTexts rows columns .empty).editAll edits
    ((∃ loaded, ofXml s.toXml = .ok loaded) ↔
      s.IsWritable ∧ Decimal.digitCount s.rows.natAbs ≤ Text.digitLimit ∧
        Decimal.digitCount s.columns.natAbs ≤ Text.digitLimit) ∧
    (¬ s.IsWritable → ofXml s.toXml = .error .malformedXml) ∧
    ∀ loaded, ofXml s.toXml = .ok loaded →
      loaded = ⟨ofTexts s.rows s.columns s.loadedCells, 0⟩ := by
  intro s
  have hok : ∀ loaded, ofXml s.toXml = .ok loaded ↔ _ := fun _ =>
    ofXml_toXml_eq_ok (isClean_of_mem_editAll rfl)
  refine ⟨⟨?_, fun h => ⟨_, (hok _).2 ⟨h, rfl⟩⟩⟩, ofXml_toXml_of_not_isWritable,
    fun loaded h => ((hok loaded).1 h).2⟩
  rintro ⟨loaded, h⟩
  exact ((hok loaded).1 h).1

/-- A text of two lines, and one under another spelling of the same cell. Both names are loaded as one,
under which the last text counts. -/
theorem loads_iff_isWritable_lines :
    ((ofTexts 5 5 .empty).editAll [.set "B2" "x\r\ny", .set "a1" "", .set "A1\n" "z\r",
      .set "A1" "w"]).cells.entries = [("B2", "x\r\ny"), ("A1\n", "z\r"), ("A1", "w")] ∧
    ∃ loaded, ofXml ((ofTexts 5 5 .empty).editAll [.set "B2" "x\r\ny", .set "a1" "",
        .set "A1\n" "z\r", .set "A1" "w"]).toXml = .ok loaded ∧
      loaded.sheet.cells.entries = [("B2", "x\ny"), ("A1", "w")] := by
  obtain ⟨hloads, -, hloaded⟩ := loads_iff_isWritable 5 5
    [.set "B2" "x\r\ny", .set "a1" "", .set "A1\n" "z\r", .set "A1" "w"]
  obtain ⟨loaded, hok⟩ := hloads.2 (by decide +kernel)
  refine ⟨by decide +kernel, loaded, hok, ?_⟩
  rw [hloaded loaded hok]
  decide +kernel

/-- A control character is stored and written, but it makes the document malformed. -/
theorem loads_iff_isWritable_control :
    ((ofTexts 5 5 .empty).editAll [.set "A1" "\x01"]).cells.entries = [("A1", "\x01")] ∧
      ofXml ((ofTexts 5 5 .empty).editAll [.set "A1" "\x01"]).toXml = .error .malformedXml :=
  ⟨by decide +kernel, ofXml_toXml_of_not_isWritable (by decide +kernel)⟩

end Sheet

end Spreadsheet
