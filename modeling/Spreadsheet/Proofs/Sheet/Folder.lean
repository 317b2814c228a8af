import Spreadsheet.Proofs.Csv.LineEnd
import Spreadsheet.Proofs.Sheet.Csv
import Spreadsheet.Proofs.Sheet.Reload
import Spreadsheet.Sheet.Folder

/-!
# Saving comma-separated text

A sheet that is saved as comma-separated text is written as it is, but when the file is read its line
ends become line feeds. So what is loaded from a file is what would be read from the text itself, with
line feeds at the ends of the lines of its cells; the rows, the columns and the names are the same.

## Main statements

* `Sheet.withLineFeeds_eq_self` — the sheets that stay as they are.
* `Sheet.ofCsv_lineFeeds` — the sheet of a text whose lines end with line feeds.
* `Folder.exists_put` — a file that was put into a folder is found there.
* `Folder.load_save_delimited` — what is loaded after a sheet was saved.
* `Folder.load_save_delimited_return` — a text that is not loaded as it was saved.
-/

namespace Spreadsheet

open Text (lineFeeds normalizeLines)

/-! ## Lists of results -/

theorem filterMapM_map_of_map {ε α β γ δ : Type} {l : List α} {f : α → Except ε (Option β)}
    {g : γ → Except ε (Option δ)} {k : α → γ} {h : β → δ}
    (hg : ∀ a ∈ l, g (k a) = (f a).map (Option.map h)) :
    (l.map k).filterMapM g = (l.filterMapM f).map (List.map h) := by
  induction l with
  | nil => rfl
  | cons a l ih =>
    obtain ⟨ha, hl⟩ := List.forall_mem_cons.1 hg
    rw [List.map_cons, List.filterMapM_cons, List.filterMapM_cons, ha, ih hl]
    cases f a with
    | error e => rfl
    | ok b => cases b <;> cases l.filterMapM f <;> rfl

theorem mapM_map_of_map {ε α β γ δ : Type} {l : List α} {f : α → Except ε β} {g : γ → Except ε δ}
    {k : α → γ} {h : β → δ} (hg : ∀ a ∈ l, g (k a) = (f a).map h) :
    (l.map k).mapM g = (l.mapM f).map (List.map h) := by
  induction l with
  | nil => rfl
  | cons a l ih =>
    obtain ⟨ha, hl⟩ := List.forall_mem_cons.1 hg
    rw [List.map_cons, List.mapM_cons, List.mapM_cons, ha, ih hl]
    cases f a with
    | error e => rfl
    | ok b => cases l.mapM f <;> rfl

/-! ## Lines with line feeds -/

namespace Text

variable {text : String}

theorem lineFeeds_eq_empty : lineFeeds text = "" ↔ text = "" := by
  have hnil : ∀ s : List Char, normalizeLines s = [] ↔ s = [] := fun s => by
    fun_induction normalizeLines s <;> simp
  rw [lineFeeds, ← String.toList_inj, ← String.toList_inj, String.toList_ofList]
  exact hnil text.toList

/-- Texts without carriage returns are kept, and no others. -/
theorem lineFeeds_eq_self : lineFeeds text = text ↔ '\r' ∉ text.toList := by
  constructor
  · intro h hreturn
    rw [← h, lineFeeds, String.toList_ofList] at hreturn
    exact (mem_normalizeLines hreturn).1 rfl
  · intro h
    rw [lineFeeds, (normalizes_self h).normalizeLines_eq, String.ofList_toList]

end Text

namespace Sheet

variable {s t : Sheet} {text : String} {row : Nat} {fields : List String}
  {records : List (List String)}

/-- The carriage returns of a sheet make the difference. -/
theorem withLineFeeds_eq_self :
    s.withLineFeeds = s ↔ ∀ e ∈ s.cells.entries, '\r' ∉ e.2.toList := by
  have hsheet : s.withLineFeeds = s ↔ s.withLineFeeds.cells.entries = s.cells.entries := by
    constructor
    · exact congrArg fun s : Sheet => s.cells.entries
    · intro h
      exact congrArg (fun cells => { s with cells }) (OrderedMap.ext_entries h)
  have hentries : (s.cells.entries.map fun e => (e.1, lineFeeds e.2)) = s.cells.entries ↔
      ∀ e ∈ s.cells.entries, (e.1, lineFeeds e.2) = e := by
    conv_lhs => rhs; rw [← List.map_id s.cells.entries]
    exact List.map_inj_left
  rw [hsheet, entries_withLineFeeds, hentries]
  refine forall₂_congr fun e _ => ?_
  rw [← Text.lineFeeds_eq_self, Prod.ext_iff]
  exact and_iff_right rfl

/-! ## Records with line feeds -/

theorem rowCells_lineFeeds (row : Nat) (fields : List String) :
    rowCells row (fields.map lineFeeds) =
      (rowCells row fields).map (List.map fun e => (e.1, lineFeeds e.2)) := by
  rw [rowCells, List.zipIdx_map]
  refine filterMapM_map_of_map fun (text, column) _ => ?_
  by_cases htext : text = ""
  · simp [htext, Text.lineFeeds_eq_empty.2]
    rfl
  · have hlines : lineFeeds text ≠ "" := mt Text.lineFeeds_eq_empty.1 htext
    simp [htext, hlines]
    cases CellName.ofPosition row column <;> rfl

theorem recordCells_eq_map (records : List (List String)) :
    recordCells records =
      ((records.zipIdx 1).mapM fun e => rowCells e.2 e.1).map List.flatten := by
  unfold recordCells
  cases hrows : (records.zipIdx 1).mapM fun e => rowCells e.2 e.1 <;> rfl

theorem recordCells_lineFeeds (records : List (List String)) :
    recordCells (records.map (List.map lineFeeds)) =
      (recordCells records).map (List.map fun e => (e.1, lineFeeds e.2)) := by
  have hrows : ((records.zipIdx 1).map (Prod.map (List.map lineFeeds) id)).mapM
      (fun e => rowCells e.2 e.1) = ((records.zipIdx 1).mapM fun e => rowCells e.2 e.1).map
        (List.map (List.map fun e => (e.1, lineFeeds e.2))) :=
    mapM_map_of_map fun (fields, row) _ => rowCells_lineFeeds row fields
  rw [recordCells_eq_map, recordCells_eq_map, List.zipIdx_map, hrows]
  cases (records.zipIdx 1).mapM fun e => rowCells e.2 e.1 with
  | error e => rfl
  | ok cells => simp [Except.map]

theorem widest_lineFeeds (records : List (List String)) :
    widest (records.map (List.map lineFeeds)) = widest records := by
  simp [widest, List.foldl_map]

/-- The sheet of a text whose lines end with line feeds has line feeds in its texts. -/
theorem ofCsv_lineFeeds (h : ofCsv text = .ok t) : ofCsv (lineFeeds text) = .ok t.withLineFeeds := by
  simp only [ofCsv] at h ⊢
  cases hcells : recordCells (Csv.read text).records with
  | error e =>
    rw [hcells] at h
    cases h
  | ok cells =>
    rw [hcells] at h
    cases herror : (Csv.read text).error? with
    | some e =>
      rw [herror] at h
      cases h
    | none =>
      rw [herror] at h
      obtain rfl := Except.ok.inj h
      have hread := Csv.read_lineFeeds herror
      have hlines := recordCells_lineFeeds (Csv.read text).records
      rw [hcells] at hlines
      rw [hread]
      unfold Csv.Reading.withLineFeeds
      dsimp only
      rw [hlines, herror, widest_lineFeeds, List.length_map]
      show Except.ok (ofTexts _ _ (OrderedMap.ofList _)) = _
      rw [← OrderedMap.mapValues_ofList]
      rfl

end Sheet

/-! ## Files -/

namespace Folder

variable {f : Folder} {s t : Sheet} {path name text : String}

/-- A file that was put into a folder is found there. -/
theorem exists_put (f : Folder) (hname : nameOf path = .ok name) (file : File) :
    ∃ f', f.put path file = .ok f' ∧ f'.get path = .ok file := by
  refine ⟨_, by rw [put, hname]; rfl, ?_⟩
  rw [get, hname]
  simp [bind, Except.bind]

theorem lastPart_of_nameOf (hname : nameOf path = .ok name) : lastPart path = name := by
  unfold nameOf at hname
  unfold lastPart
  grind

/-- A sheet is saved under the name of a comma-separated file if it can be written. What is loaded
from there is what is read from the written text, with line feeds at the ends of the lines of its
cells. So it is the same if and only if no text has a carriage return. -/
theorem load_save_delimited (f : Folder) (hname : nameOf path = .ok name)
    (hformat : FileFormat.ofName name = .delimited) (htext : s.toCsv = .ok text)
    (ht : Sheet.ofCsv text = .ok t) :
    ∃ f', f.save s path = .ok (f', s.markClean) ∧ f'.load path = .ok t.withLineFeeds ∧
      (t.withLineFeeds = t ↔ ∀ e ∈ t.cells.entries, '\r' ∉ e.2.toList) := by
  have hpart : FileFormat.ofName (lastPart path) = .delimited := by
    rw [lastPart_of_nameOf hname, hformat]
  obtain ⟨f', hput, hget⟩ := f.exists_put hname (.text text)
  refine ⟨f', ?_, ?_, Sheet.withLineFeeds_eq_self⟩
  · have hfile : fileFor s (lastPart path) = .ok (.text text) := by
      rw [fileFor, hpart, htext]
      rfl
    rw [save, hfile]
    show (do return (← f.put path (.text text), s.markClean)) = _
    rw [hput]
    rfl
  · have hread : f'.readText path = .ok (lineFeeds text) := by
      rw [readText, hget]
      rfl
    rw [load, hpart]
    show (do Sheet.ofCsv (← f'.readText path)) = _
    rw [hread, ← Sheet.ofCsv_lineFeeds ht]
    exact pure_bind (lineFeeds text) Sheet.ofCsv

/-- A text of two lines, which is loaded as it was saved. -/
theorem load_save_delimited_feed :
    let s := Sheet.ofTexts 1 1 (.ofList [("A1", "a\nb")])
    ∃ f', empty.save s "a.csv" = .ok (f', s) ∧ f'.load "a.csv" = .ok s := by
  intro s
  have htext : s.toCsv = .ok "\"a\nb\"\r\n" := by decide +kernel
  have hread : Sheet.ofCsv "\"a\nb\"\r\n" = .ok s := by decide +kernel
  have hname : nameOf "a.csv" = .ok "a.csv" := by decide +kernel
  obtain ⟨f', hsave, hload, hsame⟩ :=
    load_save_delimited empty hname (by decide +kernel) htext hread
  rw [hsame.2 (by decide +kernel)] at hload
  exact ⟨f', hsave, hload⟩

/-- A carriage return in a text is a line feed after the text was saved and loaded. -/
theorem load_save_delimited_return :
    let s := Sheet.ofTexts 1 1 (.ofList [("A1", "a\rb")])
    (s.toCsv >>= Sheet.ofCsv) = .ok s ∧
      ∃ f', empty.save s "a.csv" = .ok (f', s) ∧
        f'.load "a.csv" = .ok (Sheet.ofTexts 1 1 (.ofList [("A1", "a\nb")])) ∧
        f'.load "a.csv" ≠ .ok s := by
  intro s
  refine ⟨by decide +kernel, ⟨[("a.csv", .text "\"a\rb\"\r\n")]⟩, ?_, ?_, ?_⟩ <;> decide +kernel

end Folder

end Spreadsheet
