import Spreadsheet.Proofs.Csv.RoundTrip
import Spreadsheet.Proofs.Text.LineEnd

/-!
# Line ends in comma-separated text

Comma-separated text may be read after its line ends became line feeds. Between quotation marks this
changes the fields, and outside of them nothing: a carriage return ends a record there, and so does a
line feed, and lines without a field are no records. So what is read from the text without an error
is read from the lines with line feeds too, with line feeds in the fields.

## Main definitions

* `Csv.Reader.withLineFeeds`, `Csv.Reading.withLineFeeds` — what was read, with line feeds.
* `Csv.Reader.Valid` — what a reader knows about its field.

## Main statements

* `Csv.step_withLineFeeds`, `Csv.step_lineEnd` — single characters.
* `Csv.readFrom_withLineFeeds` — what is read on from any reader.
* `Csv.read_lineFeeds` — the records of a text whose lines end with line feeds.
-/

namespace Spreadsheet.Csv

open Text (lineFeeds normalizeLines)

variable {mode : Mode} {r r' : Reader} {c d : Char} {s : List Char} {e : Error}

namespace Reader

/-! ## Readers -/

/-- Whether a reader counts the characters of its field, of which there are none where no field has
begun. -/
structure Valid (r : Reader) : Prop where
  fieldSize_eq : r.fieldSize = r.field.length
  field_eq : r.mode ≠ .unquoted → r.mode ≠ .quoted → r.mode ≠ .quoteSeen → r.field = []

/-- What a reader has read, with line feeds at the ends of lines. -/
def withLineFeeds (r : Reader) : Reader :=
  ⟨r.mode, (normalizeLines r.field.reverse).reverse, (normalizeLines r.field.reverse).length,
    r.fields.map normalizeLines, r.records.map (List.map normalizeLines)⟩

/-- The reader behind a line end outside of quotation marks, on the same line. -/
def endRecord (r : Reader) : Reader :=
  if r.mode = .recordStart ∨ r.mode = .recordEnd then { r with mode := .recordEnd }
  else r.saveField .recordEnd

/-- The reader on the next line, if a record has ended. -/
def settled (r : Reader) : Reader :=
  if r.mode = .recordEnd then r.saveRecord else r

theorem settled_of_ne (h : r.mode ≠ .recordEnd) : r.settled = r :=
  if_neg h

theorem mode_endRecord (r : Reader) : r.endRecord.mode = .recordEnd := by
  unfold endRecord
  split <;> rfl

theorem endRecord_endRecord (r : Reader) : r.endRecord.endRecord = r.endRecord := by
  rw [endRecord, if_pos (.inr r.mode_endRecord), ← r.mode_endRecord]

theorem mode_saveRecord (r : Reader) : r.saveRecord.mode = .recordStart := by
  unfold saveRecord
  split <;> rfl

theorem settled_saveRecord (r : Reader) : r.saveRecord.settled = r.saveRecord :=
  settled_of_ne (by simp [mode_saveRecord])

/-- A line end behind the end of a record is part of it, or it ends a line without a record. -/
theorem saveRecord_endRecord_settled (r : Reader) :
    r.settled.endRecord.saveRecord = r.endRecord.saveRecord := by
  by_cases hmode : r.mode = .recordEnd
  · have hsame : r.endRecord = r := by
      rw [endRecord, if_pos (.inr hmode), ← hmode]
    rw [settled, if_pos hmode, endRecord, if_pos (.inl r.mode_saveRecord), hsame]
    unfold saveRecord
    by_cases hfields : r.fields = [] <;> simp [hfields]
  · rw [settled_of_ne hmode]

theorem settled_endRecord (r : Reader) : r.endRecord.settled = r.endRecord.saveRecord :=
  if_pos r.mode_endRecord

theorem addChar_eq_ok : r.addChar mode c = .ok r' ↔ r.fieldSize < fieldLimit ∧
    r' = ⟨mode, c :: r.field, r.fieldSize + 1, r.fields, r.records⟩ := by
  unfold addChar
  split
  next hfull => simp [Nat.not_lt.2 hfull]
  next hfits => simp [Nat.not_le.1 hfits, eq_comm]

theorem mode_of_addChar (h : r.addChar mode c = .ok r') : r'.mode = mode :=
  (addChar_eq_ok.1 h).2 ▸ rfl

/-! ## Valid readers -/

theorem valid_start : start.Valid :=
  ⟨rfl, fun _ _ _ => rfl⟩

theorem Valid.saveField (r : Reader) (mode : Mode) : (r.saveField mode).Valid :=
  ⟨rfl, fun _ _ _ => rfl⟩

theorem Valid.addChar (h : r.Valid) (hadd : r.addChar mode c = .ok r')
    (hmode : mode = .unquoted ∨ mode = .quoted) : r'.Valid := by
  obtain ⟨-, rfl⟩ := addChar_eq_ok.1 hadd
  refine ⟨by simp [h.fieldSize_eq], fun hunquoted hquoted => ?_⟩
  exact (hmode.elim hunquoted hquoted).elim

theorem Valid.beginField (h : r.Valid) (hbegin : r.beginField c = .ok r') : r'.Valid := by
  unfold Reader.beginField at hbegin
  split at hbegin
  · cases hbegin
    exact .saveField r _
  split at hbegin
  · cases hbegin
    exact ⟨h.fieldSize_eq, fun _ hquoted => absurd rfl hquoted⟩
  split at hbegin
  · cases hbegin
    exact .saveField r _
  · exact h.addChar hbegin (.inl rfl)

theorem Valid.step (h : r.Valid) (hstep : r.step c = .ok r') : r'.Valid := by
  unfold Reader.step at hstep
  grind [Valid.saveField, Valid.addChar, Valid.beginField, Valid]

theorem Valid.saveRecord (h : r.Valid) (hmode : r.mode = .recordStart ∨ r.mode = .recordEnd) :
    r.saveRecord.Valid := by
  have hfield : r.field = [] := h.field_eq (by grind) (by grind) (by grind)
  unfold Reader.saveRecord
  split <;> exact ⟨h.fieldSize_eq, fun _ _ _ => hfield⟩

theorem Valid.endRecord (h : r.Valid) : r.endRecord.Valid := by
  unfold Reader.endRecord
  split
  next hmode => exact ⟨h.fieldSize_eq, fun _ _ _ => h.field_eq (by grind) (by grind) (by grind)⟩
  · exact .saveField r _

theorem Valid.endRecord_saveRecord (h : r.Valid) : r.endRecord.saveRecord.Valid :=
  h.endRecord.saveRecord (.inr r.mode_endRecord)

/-! ## Line feeds -/

theorem withLineFeeds_saveField (r : Reader) (mode : Mode) :
    (r.saveField mode).withLineFeeds = r.withLineFeeds.saveField mode := by
  simp [withLineFeeds, Reader.saveField, normalizeLines]

theorem withLineFeeds_saveRecord (r : Reader) :
    r.saveRecord.withLineFeeds = r.withLineFeeds.saveRecord := by
  unfold Reader.saveRecord
  by_cases hfields : r.fields = [] <;> simp [withLineFeeds, hfields]

theorem withLineFeeds_endRecord (r : Reader) :
    r.endRecord.withLineFeeds = r.withLineFeeds.endRecord := by
  unfold endRecord
  rw [apply_ite withLineFeeds, withLineFeeds_saveField]
  rfl

/-- A character is added to the field whose lines end with line feeds, if it goes on with the last
line. -/
theorem withLineFeeds_addChar (hr : r.Valid) (h : r.addChar mode c = .ok r')
    (hd : normalizeLines (r.field.reverse ++ [c]) = normalizeLines r.field.reverse ++ [d]) :
    r.withLineFeeds.addChar mode d = .ok r'.withLineFeeds := by
  obtain ⟨hsize, rfl⟩ := addChar_eq_ok.1 h
  have hle := Text.length_normalizeLines_le r.field.reverse
  rw [hr.fieldSize_eq] at hsize
  rw [List.length_reverse] at hle
  refine addChar_eq_ok.2 ⟨Nat.lt_of_le_of_lt hle hsize, ?_⟩
  simp [withLineFeeds, hd]

/-- So is a line feed for a carriage return and a line feed. -/
theorem withLineFeeds_addChar_addChar {r₁ : Reader} (hr : r.Valid)
    (h : r.addChar mode '\r' = .ok r₁) (h' : r₁.addChar mode '\n' = .ok r') :
    r.withLineFeeds.addChar mode '\n' = .ok r'.withLineFeeds := by
  obtain ⟨hsize, rfl⟩ := addChar_eq_ok.1 h
  obtain ⟨-, rfl⟩ := addChar_eq_ok.1 h'
  have hle := Text.length_normalizeLines_le r.field.reverse
  have hhead : ['\r', '\n'].head? ≠ some '\n' := by simp
  have hpair := Text.normalizeLines_append hhead r.field.reverse
  rw [hr.fieldSize_eq] at hsize
  rw [List.length_reverse] at hle
  refine addChar_eq_ok.2 ⟨Nat.lt_of_le_of_lt hle hsize, ?_⟩
  simp [withLineFeeds, hpair, normalizeLines]

end Reader

open Reader (isLineEnd)

/-! ## Single characters -/

theorem isLineEnd_iff : isLineEnd c ↔ c = '\n' ∨ c = '\r' := by
  simp [isLineEnd]

theorem isLineEnd_eq_false : isLineEnd c = false ↔ c ≠ '\n' ∧ c ≠ '\r' := by
  simp [isLineEnd]

/-- A character that ends no line is added alike. -/
theorem addChar_withLineFeeds (hr : r.Valid) (hc : isLineEnd c = false)
    (h : r.addChar mode c = .ok r') :
    r'.mode = mode ∧ r.withLineFeeds.addChar mode c = .ok r'.withLineFeeds := by
  obtain ⟨hfeed, hreturn⟩ := isLineEnd_eq_false.1 hc
  refine ⟨Reader.mode_of_addChar h, Reader.withLineFeeds_addChar hr h ?_⟩
  rw [Text.normalizeLines_append (by simpa using hfeed), Text.normalizeLines_cons hreturn]
  rfl

theorem beginField_withLineFeeds (hr : r.Valid) (hc : isLineEnd c = false)
    (h : r.beginField c = .ok r') :
    r'.mode ≠ .recordEnd ∧ r.withLineFeeds.beginField c = .ok r'.withLineFeeds := by
  unfold Reader.beginField at h ⊢
  rw [hc, if_neg Bool.false_ne_true] at h ⊢
  split at h
  next hquote =>
    cases h
    exact ⟨by simp, if_pos hquote⟩
  next hquote =>
    rw [if_neg hquote]
    split at h
    next hcomma =>
      cases h
      rw [if_pos hcomma, Reader.withLineFeeds_saveField]
      exact ⟨by simp [Reader.saveField], rfl⟩
    next hcomma =>
      rw [if_neg hcomma]
      obtain ⟨hmode, hadd⟩ := addChar_withLineFeeds hr hc h
      exact ⟨by simp [hmode], hadd⟩

/-- A character that ends no line is taken alike. -/
theorem step_withLineFeeds (hr : r.Valid) (hc : isLineEnd c = false) (h : r.step c = .ok r') :
    r.mode ≠ .recordEnd ∧ r'.mode ≠ .recordEnd ∧
      r.withLineFeeds.step c = .ok r'.withLineFeeds := by
  have hmode : r.withLineFeeds.mode = r.mode := rfl
  have hadd : ∀ mode, r.addChar mode c = .ok r' → r'.mode = mode ∧ _ :=
    fun mode => addChar_withLineFeeds hr hc
  have hsave := r.withLineFeeds_saveField .fieldStart
  unfold Reader.step at h ⊢
  rw [hmode]
  cases hr_mode : r.mode <;> simp only [hr_mode, hc, Bool.false_eq_true, if_false] at h ⊢
  case recordStart | fieldStart => exact ⟨by simp, beginField_withLineFeeds hr hc h⟩
  case unquoted | quoteSeen => grind [Reader.saveField]
  case quoted =>
    split at h
    next hquote =>
      cases h
      exact ⟨by simp, by simp, if_pos hquote⟩
    next hquote =>
      rw [if_neg hquote]
      exact ⟨by simp, by simp [(hadd _ h).1], (hadd _ h).2⟩
  case recordEnd => cases h

/-! ## Line ends outside of quotation marks -/

theorem step_lineEnd (hmode : r.mode ≠ .quoted) (hc : isLineEnd c) :
    r.step c = .ok r.endRecord := by
  have hquote : c ≠ '"' := by rintro rfl; simp [isLineEnd] at hc
  have hcomma : c ≠ ',' := by rintro rfl; simp [isLineEnd] at hc
  unfold Reader.step Reader.beginField Reader.endRecord
  cases hr : r.mode with
  | quoted => exact absurd hr hmode
  | recordStart | fieldStart | unquoted | quoteSeen => simp [hc, hquote, hcomma]
  | recordEnd =>
    have hsame : { r with mode := .recordEnd } = r := by rw [← hr]
    simp [hc, hsame]

theorem readFrom_return (hmode : r.mode ≠ .quoted) :
    readFrom r ('\r' :: s) = readFrom r.endRecord s :=
  readFrom_cons (step_lineEnd hmode rfl) (by decide)

theorem readFrom_feed (hmode : r.mode ≠ .quoted) :
    readFrom r ('\n' :: s) = readFrom r.endRecord.saveRecord s := by
  rw [readFrom_lineFeed (step_lineEnd hmode rfl), Reader.endLine, r.mode_endRecord]

theorem readFrom_returnFeed (hmode : r.mode ≠ .quoted) :
    readFrom r ('\r' :: '\n' :: s) = readFrom r.endRecord.saveRecord s := by
  rw [readFrom_return hmode, readFrom_feed (by simp [r.mode_endRecord]), r.endRecord_endRecord]

/-- The reader of lines with line feeds ends a record and the line together. -/
theorem readFrom_feed_withLineFeeds (hmode : r.mode ≠ .quoted) :
    readFrom r.settled.withLineFeeds ('\n' :: s) =
      readFrom r.endRecord.saveRecord.withLineFeeds s := by
  have hsettled : r.settled.withLineFeeds.mode ≠ .quoted := by
    show r.settled.mode ≠ .quoted
    unfold Reader.settled
    split
    · simp [r.mode_saveRecord]
    · exact hmode
  rw [readFrom_feed hsettled, ← Reader.withLineFeeds_endRecord, ← Reader.withLineFeeds_saveRecord,
    r.saveRecord_endRecord_settled]

/-! ## Quoted parts -/

theorem readFrom_inQuotes (hmode : r.mode = .quoted) (hquote : c ≠ '"')
    (h : r.addChar .quoted c = .ok r') : readFrom r (c :: s) = readFrom r' s := by
  have hstep : r.step c = .ok r' := by
    rw [Reader.step, hmode]
    exact (if_neg hquote).trans h
  by_cases hfeed : c = '\n'
  · subst hfeed
    rw [readFrom_lineFeed hstep, Reader.endLine, Reader.mode_of_addChar h]
  · exact readFrom_cons hstep hfeed

/-- A line end in a quoted part is taken as a line feed, unless it is one behind a carriage return. -/
theorem readFrom_feed_inQuotes (hr : r.Valid) (hmode : r.mode = .quoted) (hc : isLineEnd c)
    (hcut : c = '\n' → r.field.head? ≠ some '\r') (h : r.addChar .quoted c = .ok r') :
    readFrom r.settled.withLineFeeds ('\n' :: s) = readFrom r'.settled.withLineFeeds s := by
  have hmode' : r'.mode = .quoted := Reader.mode_of_addChar h
  have hlast : normalizeLines (r.field.reverse ++ [c]) =
      normalizeLines r.field.reverse ++ ['\n'] := by
    obtain rfl | rfl := isLineEnd_iff.1 hc
    · refine Text.normalizeLines_append_feed ?_
      rw [List.getLast?_reverse]
      exact hcut rfl
    · exact Text.normalizeLines_append (by simp) _
  rw [Reader.settled_of_ne (by simp [hmode]), Reader.settled_of_ne (by simp [hmode'])]
  exact readFrom_inQuotes hmode (by decide) (Reader.withLineFeeds_addChar hr h hlast)

/-- A carriage return and a line feed in a quoted part are taken as one line feed. -/
theorem readFrom_returnFeed_inQuotes {r₁ : Reader} (hr : r.Valid) (hmode : r.mode = .quoted)
    (h : r.addChar .quoted '\r' = .ok r₁) (h' : r₁.addChar .quoted '\n' = .ok r') :
    readFrom r.settled.withLineFeeds ('\n' :: s) = readFrom r'.settled.withLineFeeds s := by
  have hmode' : r'.mode = .quoted := Reader.mode_of_addChar h'
  rw [Reader.settled_of_ne (by simp [hmode]), Reader.settled_of_ne (by simp [hmode'])]
  exact readFrom_inQuotes hmode (by decide) (Reader.withLineFeeds_addChar_addChar hr h h')

/-- A quoted part begins without characters and goes on with those that are taken. -/
theorem head?_field_of_step (hr : r.Valid) (h : r.step c = .ok r') (hmode : r'.mode = .quoted) :
    r'.field = [] ∨ r'.field.head? = some c := by
  have hfield := hr.field_eq
  unfold Reader.step Reader.beginField at h
  grind [Reader.saveField, Reader.addChar]

theorem exists_addChar_of_readFrom (hmode : r.mode = .quoted) (hquote : c ≠ '"')
    (h : (readFrom r (c :: s)).error? = none) :
    ∃ r', r.addChar .quoted c = .ok r' ∧ readFrom r (c :: s) = readFrom r' s := by
  cases hadd : r.addChar .quoted c with
  | ok r' => exact ⟨r', rfl, readFrom_inQuotes hmode hquote hadd⟩
  | error e =>
    have hstep : r.step c = .error e := by
      rw [Reader.step, hmode]
      exact (if_neg hquote).trans hadd
    rw [readFrom, hstep] at h
    cases h

/-! ## Texts -/

/-- What was read, with line feeds at the ends of lines. -/
def Reading.withLineFeeds (r : Reading) : Reading :=
  ⟨r.records.map (List.map lineFeeds), r.error?⟩

theorem reading_withLineFeeds (r : Reader) (error? : Option Error) :
    r.withLineFeeds.reading error? = (r.reading error?).withLineFeeds := by
  simp [Reader.reading, Reading.withLineFeeds, Reader.withLineFeeds, lineFeeds,
    Function.comp_def]

theorem finish_eq_saveRecord (h : r.mode = .recordStart ∨ r.mode = .recordEnd) :
    r.finish = r.saveRecord := by
  have hmode : r.saveRecord.mode ≠ .quoted := by simp [r.mode_saveRecord]
  unfold Reader.finish Reader.endLine
  obtain h | h := h <;> simp [h, hmode]

theorem finish_eq_saveField (h : r.mode ≠ .recordStart) (h' : r.mode ≠ .recordEnd) :
    r.finish = (r.saveField .recordEnd).saveRecord := by
  have hmode : (r.saveField .recordEnd).saveRecord.mode ≠ .quoted := by
    simp [Reader.mode_saveRecord]
  unfold Reader.finish Reader.endLine
  cases hr : r.mode with
  | recordStart => exact absurd hr h
  | recordEnd => exact absurd hr h'
  | quoted => simp [hr]
  | fieldStart | unquoted | quoteSeen => simp [hmode]

theorem finish_withLineFeeds (r : Reader) :
    r.settled.withLineFeeds.finish = r.finish.withLineFeeds := by
  by_cases hend : r.mode = .recordEnd
  · have hsaved : r.saveRecord.saveRecord = r.saveRecord := by
      unfold Reader.saveRecord
      by_cases hfields : r.fields = [] <;> simp [hfields]
    rw [Reader.settled, if_pos hend, finish_eq_saveRecord (.inr hend),
      finish_eq_saveRecord (r := r.saveRecord.withLineFeeds) (.inl r.mode_saveRecord),
      ← Reader.withLineFeeds_saveRecord, hsaved]
  rw [Reader.settled_of_ne hend]
  by_cases hstart : r.mode = .recordStart
  · rw [finish_eq_saveRecord (.inl hstart), Reader.withLineFeeds_saveRecord]
    exact finish_eq_saveRecord (.inl hstart)
  · rw [finish_eq_saveField hstart hend, Reader.withLineFeeds_saveRecord,
      Reader.withLineFeeds_saveField]
    exact finish_eq_saveField hstart hend

theorem exists_step_of_readFrom (h : (readFrom r (c :: s)).error? = none) :
    ∃ r', r.step c = .ok r' := by
  cases hstep : r.step c with
  | ok r' => exact ⟨r', rfl⟩
  | error e =>
    rw [readFrom, hstep] at h
    cases h

/-- What is read without an error is read alike from the lines with line feeds. In front of a line
feed the field may not end with a carriage return, which would be one line end with it. -/
theorem readFrom_withLineFeeds (hr : r.Valid)
    (hcut : r.mode = .quoted → r.field.head? = some '\r' → s.head? ≠ some '\n')
    (h : (readFrom r s).error? = none) :
    readFrom r.settled.withLineFeeds (normalizeLines s) = (readFrom r s).withLineFeeds := by
  fun_induction normalizeLines s generalizing r with
  | case1 =>
    rw [readFrom, readFrom, finish_withLineFeeds, reading_withLineFeeds]
  | case2 s ih =>
    by_cases hmode : r.mode = .quoted
    · obtain ⟨r₁, hreturn, hread⟩ := exists_addChar_of_readFrom hmode (by decide) h
      rw [hread] at h ⊢
      obtain ⟨r₂, hfeed, hread⟩ :=
        exists_addChar_of_readFrom (Reader.mode_of_addChar hreturn) (by decide) h
      rw [hread] at h ⊢
      have hr₂ := (hr.addChar hreturn (.inr rfl)).addChar hfeed (.inr rfl)
      have hfield : r₂.field.head? = some '\n' := (Reader.addChar_eq_ok.1 hfeed).2 ▸ rfl
      rw [readFrom_returnFeed_inQuotes hr hmode hreturn hfeed]
      exact ih hr₂ (by simp [hfield]) h
    · rw [readFrom_returnFeed hmode] at h ⊢
      rw [readFrom_feed_withLineFeeds hmode,
        ← ih hr.endRecord_saveRecord (by simp [Reader.mode_saveRecord]) h,
        Reader.settled_saveRecord]
  | case3 c s hpair ih =>
    obtain ⟨r', hstep⟩ := exists_step_of_readFrom h
    have hcut' : r'.mode = .quoted → r'.field.head? = some '\r' → s.head? ≠ some '\n' := by
      intro hmode hfield hs
      obtain hnil | hlast := head?_field_of_step hr hstep hmode
      · simp [hnil] at hfield
      · obtain ⟨s, rfl⟩ := List.head?_eq_some_iff.1 hs
        exact hpair s (Option.some.inj (hlast.symm.trans hfield)) rfl
    by_cases hc : isLineEnd c
    · have hfeed : (if c = '\r' then '\n' else c) = '\n' := by
        obtain rfl | rfl := isLineEnd_iff.1 hc <;> rfl
      rw [hfeed]
      by_cases hmode : r.mode = .quoted
      · have hquote : c ≠ '"' := by rintro rfl; simp [isLineEnd] at hc
        rw [Reader.step, hmode] at hstep
        have hadd : r.addChar .quoted c = .ok r' := (if_neg hquote).symm.trans hstep
        have hfield : c = '\n' → r.field.head? ≠ some '\r' := by
          rintro rfl hfield
          exact hcut hmode hfield rfl
        rw [readFrom_inQuotes hmode hquote hadd] at h ⊢
        rw [readFrom_feed_inQuotes hr hmode hc hfield hadd]
        exact ih (hr.addChar hadd (.inr rfl)) hcut' h
      · rw [readFrom_feed_withLineFeeds hmode]
        obtain rfl | rfl := isLineEnd_iff.1 hc
        · rw [readFrom_feed hmode] at h ⊢
          rw [← ih hr.endRecord_saveRecord (by simp [Reader.mode_saveRecord]) h,
            Reader.settled_saveRecord]
        · rw [readFrom_return hmode] at h ⊢
          rw [← ih hr.endRecord (by simp [Reader.mode_endRecord]) h, Reader.settled_endRecord]
    · obtain ⟨hfeed, hreturn⟩ := isLineEnd_eq_false.1 (by simpa using hc)
      obtain ⟨hmode, hmode', hstep'⟩ := step_withLineFeeds hr (by simpa using hc) hstep
      rw [readFrom_cons hstep hfeed] at h ⊢
      rw [if_neg hreturn, Reader.settled_of_ne hmode, readFrom_cons hstep' hfeed,
        ← ih (hr.step hstep) hcut' h, Reader.settled_of_ne hmode']

/-- The records of a text that is read without an error are those of its lines with line feeds, whose
fields have line feeds too. -/
theorem read_lineFeeds {text : String} (h : (read text).error? = none) :
    read (lineFeeds text) = (read text).withLineFeeds := by
  have hstart : Reader.start.settled.withLineFeeds = Reader.start := rfl
  rw [read, lineFeeds, String.toList_ofList, ← hstart]
  exact readFrom_withLineFeeds Reader.valid_start (fun hmode => by cases hmode) h

end Spreadsheet.Csv
