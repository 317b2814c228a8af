import Spreadsheet.Csv.Reader
import Spreadsheet.Csv.Writer

/-!
# Reading what is written as comma-separated text

What is written as comma-separated text is read as the rows that it was written for. The proof goes
along the text: behind every part of it the reader stands as if it had been given the part itself
and not its written form. Fields between quotation marks go on as if nothing in them had a meaning,
and a field is never left in a mode in which the comma or the line end behind it would be taken for
something else.

## Main definitions

* `Csv.Reader.within` — the reader in the middle of a record.
* `Csv.Mode.behind` — how the reader stands behind a field.

## Main statements

* `Csv.readFrom_writeField`, `Csv.readFrom_writeRow` — the reader behind a field and behind a row.
* `Csv.read_write` — the rows of a text that was written.
-/

namespace Spreadsheet.Csv

variable {mode mode' : Mode} {field s rest : List Char} {fields : List (List Char)}
  {records rows : List (List (List Char))} {r r' : Reader} {c : Char}

/-! ## Single characters -/

/-- The reader in the middle of a record: a part of a field has been read, several fields before it,
and the records before them. The lists of fields and records are in reverse. -/
def Reader.within (mode : Mode) (field : List Char) (fields : List (List Char))
    (records : List (List (List Char))) : Reader :=
  ⟨mode, field.reverse, field.length, fields, records⟩

theorem addChar_within (h : field.length < fieldLimit) :
    (Reader.within mode field fields records).addChar mode' c =
      .ok (.within mode' (field ++ [c]) fields records) := by
  have hfits : ¬ fieldLimit ≤ field.length := by omega
  simp [Reader.within, Reader.addChar, hfits]

theorem saveField_within (mode mode' : Mode) (field : List Char) (fields : List (List Char))
    (records : List (List (List Char))) :
    (Reader.within mode field fields records).saveField mode' =
      .within mode' [] (field :: fields) records := by
  simp [Reader.within, Reader.saveField]

theorem readFrom_cons (h : r.step c = .ok r') (hc : c ≠ '\n') :
    readFrom r (c :: rest) = readFrom r' rest := by
  rw [readFrom, h]
  simp [hc]

theorem readFrom_lineFeed (h : r.step '\n' = .ok r') :
    readFrom r ('\n' :: rest) = readFrom r'.endLine rest := by
  rw [readFrom, h]
  rfl

theorem isSpecial_eq_false : isSpecial c = false ↔
    c ≠ ',' ∧ c ≠ '"' ∧ Reader.isLineEnd c = false := by
  simp [isSpecial, Reader.isLineEnd]
  grind

theorem ne_lineFeed_of_isLineEnd (h : Reader.isLineEnd c = false) : c ≠ '\n' := by
  rintro rfl
  simp [Reader.isLineEnd] at h

/-! ## Fields -/

theorem readFrom_unquoted (hs : ∀ c ∈ s, isSpecial c = false)
    (hsize : field.length + s.length ≤ fieldLimit) :
    readFrom (.within .unquoted field fields records) (s ++ rest) =
      readFrom (.within .unquoted (field ++ s) fields records) rest := by
  induction s generalizing field with
  | nil => simp
  | cons c s ih =>
    obtain ⟨hc, hs⟩ := List.forall_mem_cons.1 hs
    obtain ⟨hcomma, -, hend⟩ := isSpecial_eq_false.1 hc
    rw [List.length_cons] at hsize
    have hstep : (Reader.within .unquoted field fields records).step c =
        (Reader.within .unquoted field fields records).addChar .unquoted c := by
      simp [Reader.step, Reader.within, hend, hcomma]
    rw [addChar_within (by omega)] at hstep
    rw [List.cons_append, readFrom_cons hstep (ne_lineFeed_of_isLineEnd hend),
      ih hs (by simp; omega), List.append_assoc, List.singleton_append]

/-- Between quotation marks every text is read as it is, with doubled quotation marks for single
ones. -/
theorem readFrom_quoted (hsize : field.length + s.length ≤ fieldLimit) :
    readFrom (.within .quoted field fields records)
        (s.flatMap (fun c => if c = '"' then ['"', '"'] else [c]) ++ rest) =
      readFrom (.within .quoted (field ++ s) fields records) rest := by
  induction s generalizing field with
  | nil => simp
  | cons c s ih =>
    rw [List.length_cons] at hsize
    have hrest := @ih (field ++ [c]) (by simp; omega)
    rw [List.append_assoc, List.singleton_append] at hrest
    rw [← hrest, List.flatMap_cons, List.append_assoc]
    by_cases hquote : c = '"'
    · subst hquote
      have hadd : (Reader.within .quoteSeen field fields records).step '"' =
          .ok (.within .quoted (field ++ ['"']) fields records) := addChar_within (by omega)
      have hseen : (Reader.within .quoted field fields records).step '"' =
          .ok (.within .quoteSeen field fields records) := rfl
      rw [if_pos rfl, List.cons_append, readFrom_cons hseen (by decide), List.singleton_append,
        readFrom_cons hadd (by decide)]
    · have hadd : (Reader.within .quoted field fields records).step c =
          (Reader.within .quoted field fields records).addChar .quoted c := by
        simp [Reader.step, Reader.within, hquote]
      rw [addChar_within (by omega)] at hadd
      rw [if_neg hquote, List.singleton_append]
      by_cases hfeed : c = '\n'
      -- a line that ends between quotation marks leaves the reader as it is
      · subst hfeed
        rw [readFrom_lineFeed hadd]
        rfl
      · rw [readFrom_cons hadd hfeed]

theorem readFrom_enclose (hmode : mode = .recordStart ∨ mode = .fieldStart)
    (hsize : field.length ≤ fieldLimit) :
    readFrom (.within mode [] fields records) (enclose field ++ rest) =
      readFrom (.within .quoteSeen field fields records) rest := by
  have hopen : (Reader.within mode [] fields records).step '"' =
      .ok (.within .quoted [] fields records) := by
    obtain rfl | rfl := hmode <;> rfl
  have hclose : (Reader.within .quoted field fields records).step '"' =
      .ok (.within .quoteSeen field fields records) := rfl
  have hfits : ([] : List Char).length + field.length ≤ fieldLimit := by simpa using hsize
  rw [enclose, List.cons_append, List.cons_append, readFrom_cons hopen (by decide),
    List.append_assoc, List.singleton_append, readFrom_quoted hfits, List.nil_append,
    readFrom_cons hclose (by decide)]

/-- How the reader stands behind a field that is written: behind quotation marks, in an unquoted
field, or where it was before if the field is empty. -/
def Mode.behind (mode : Mode) (field : List Char) : Mode :=
  if field.any isSpecial then .quoteSeen else if field = [] then mode else .unquoted

theorem Mode.behind_cases (mode : Mode) (field : List Char) :
    mode.behind field = .unquoted ∨ mode.behind field = .quoteSeen ∨
      field = [] ∧ mode.behind field = mode := by
  unfold behind
  split
  · exact .inr (.inl rfl)
  split
  next hempty => exact .inr (.inr ⟨hempty, rfl⟩)
  · exact .inl rfl

theorem readFrom_writeField (hmode : mode = .recordStart ∨ mode = .fieldStart)
    (hsize : field.length ≤ fieldLimit) :
    readFrom (.within mode [] fields records) (writeField field ++ rest) =
      readFrom (.within (mode.behind field) field fields records) rest := by
  unfold writeField Mode.behind
  by_cases hspecial : field.any isSpecial
  · rw [if_pos hspecial, if_pos hspecial, readFrom_enclose hmode hsize]
  · rw [if_neg hspecial, if_neg hspecial]
    have hplain : ∀ c ∈ field, isSpecial c = false := by simpa using hspecial
    cases field with
    | nil => rfl
    | cons c s =>
      obtain ⟨hc, hs⟩ := List.forall_mem_cons.1 hplain
      obtain ⟨hcomma, hquote, hend⟩ := isSpecial_eq_false.1 hc
      rw [List.length_cons] at hsize
      have hstep : (Reader.within mode [] fields records).step c =
          (Reader.within mode [] fields records).addChar .unquoted c := by
        obtain rfl | rfl := hmode <;>
          simp [Reader.step, Reader.within, Reader.beginField, hend, hquote, hcomma]
      rw [addChar_within (by simp [fieldLimit]), List.nil_append] at hstep
      rw [if_neg (List.cons_ne_nil c s), List.cons_append,
        readFrom_cons hstep (ne_lineFeed_of_isLineEnd hend),
        readFrom_unquoted hs (by simp; omega), List.singleton_append]

/-! ## Records -/

theorem step_comma (hmode : mode = .recordStart ∨ mode = .fieldStart) :
    (Reader.within (mode.behind field) field fields records).step ',' =
      .ok (.within .fieldStart [] (field :: fields) records) := by
  rw [← saveField_within (mode.behind field)]
  obtain hbehind | hbehind | ⟨-, hbehind⟩ := mode.behind_cases field
  · rw [hbehind]
    rfl
  · rw [hbehind]
    rfl
  · rw [hbehind]
    obtain rfl | rfl := hmode <;> rfl

/-- Behind a field the line end ends the record, but not at the beginning of a record, which would
be a blank line. -/
theorem readFrom_recordEnd (hmode : mode = .fieldStart ∨ mode = .unquoted ∨ mode = .quoteSeen) :
    readFrom (.within mode field fields records) ('\r' :: '\n' :: rest) =
      readFrom (.within .recordStart [] [] ((field :: fields).reverse :: records)) rest := by
  have hreturn : (Reader.within mode field fields records).step '\r' =
      .ok (.within .recordEnd [] (field :: fields) records) := by
    rw [← saveField_within mode]
    obtain rfl | rfl | rfl := hmode <;> rfl
  have hfeed : (Reader.within .recordEnd [] (field :: fields) records).step '\n' =
      .ok (.within .recordEnd [] (field :: fields) records) := rfl
  rw [readFrom_cons hreturn (by decide), readFrom_lineFeed hfeed]
  rfl

theorem readFrom_writeFields {row : List (List Char)} (hrow : row ≠ [])
    (hmode : mode = .fieldStart ∨ mode = .recordStart ∧ row ≠ [[]])
    (hsize : ∀ field ∈ row, field.length ≤ fieldLimit) :
    readFrom (.within mode [] fields records) (writeFields row ++ '\r' :: '\n' :: rest) =
      readFrom (.within .recordStart [] [] ((fields.reverse ++ row) :: records)) rest := by
  induction row generalizing mode fields with
  | nil => exact absurd rfl hrow
  | cons field row ih =>
    obtain ⟨hfield, hsize⟩ := List.forall_mem_cons.1 hsize
    have hstart : mode = .recordStart ∨ mode = .fieldStart := hmode.symm.imp_left And.left
    cases row with
    | nil =>
      have hbehind : mode.behind field = .fieldStart ∨ mode.behind field = .unquoted ∨
          mode.behind field = .quoteSeen := by
        obtain hbehind | hbehind | ⟨rfl, hbehind⟩ := mode.behind_cases field
        · exact .inr (.inl hbehind)
        · exact .inr (.inr hbehind)
        · obtain rfl | ⟨-, hblank⟩ := hmode
          · exact .inl hbehind
          · exact absurd rfl hblank
      rw [writeFields, readFrom_writeField hstart hfield, readFrom_recordEnd hbehind,
        List.reverse_cons]
    | cons next row =>
      rw [writeFields, List.append_assoc, List.cons_append, readFrom_writeField hstart hfield,
        readFrom_cons (step_comma hstart) (by decide),
        ih (List.cons_ne_nil _ _) (.inl rfl) hsize, List.reverse_cons, List.append_assoc,
        List.singleton_append]
      exact List.cons_ne_nil _ _

/-- Behind a row the reader stands at the beginning of a record and has read one more. -/
theorem readFrom_writeRow {row : List (List Char)} (hrow : row ≠ [])
    (hsize : ∀ field ∈ row, field.length ≤ fieldLimit) :
    readFrom (.within .recordStart [] [] records) (writeRow row ++ rest) =
      readFrom (.within .recordStart [] [] (row :: records)) rest := by
  unfold writeRow
  rw [List.append_assoc, show ['\r', '\n'] ++ rest = '\r' :: '\n' :: rest from rfl]
  split
  next hblank =>
    subst hblank
    rw [readFrom_enclose (.inl rfl) (by simp), readFrom_recordEnd (.inr (.inr rfl))]
    rfl
  next hblank =>
    rw [readFrom_writeFields hrow (.inr ⟨rfl, hblank⟩) hsize]
    rfl

theorem readFrom_write (hrows : ∀ row ∈ rows, row ≠ [] ∧ ∀ field ∈ row, field.length ≤ fieldLimit) :
    readFrom (.within .recordStart [] [] records) (rows.flatMap writeRow) =
      ⟨(records.reverse ++ rows).map fun fields => fields.map String.ofList, none⟩ := by
  induction rows generalizing records with
  | nil => simp [readFrom, Reader.within, Reader.finish, Reader.endLine, Reader.saveRecord,
      Reader.reading]
  | cons row rows ih =>
    obtain ⟨hrow, hrows⟩ := List.forall_mem_cons.1 hrows
    rw [List.flatMap_cons, readFrom_writeRow hrow.1 hrow.2, ih hrows]
    simp

/-- Rows that are written are read again, if each has a field and no field is too long. -/
theorem read_write {rows : List (List String)}
    (hrows : ∀ row ∈ rows, row ≠ [] ∧ ∀ field ∈ row, field.length ≤ fieldLimit) :
    read (write rows) = ⟨rows, none⟩ := by
  have hchars : ∀ row ∈ rows.map (List.map String.toList),
      row ≠ [] ∧ ∀ field ∈ row, field.length ≤ fieldLimit := by
    simpa [String.length_toList] using hrows
  have hread : readFrom (.within .recordStart [] [] []) _ = _ := readFrom_write hchars
  rw [read, write, String.toList_ofList]
  simpa [Reader.start, Reader.within, List.flatMap_map, Function.comp_def] using hread

end Spreadsheet.Csv
