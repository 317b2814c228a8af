import Spreadsheet.Proofs.Csv.LineEnd

/-!
# The records that are read

Whatever the text is, quotation marks in unexpected places, lines without a field and a quoted part
that is never closed included, the records that are read from it have fields, and no field is longer
than the limit. So they are records that could have been written.

## Main definitions

* `Csv.IsWithinLimit` — records that can be written and read again.
* `Csv.Reader.IsWithinLimit` — a reader that has read nothing but such records.

## Main statements

* `Csv.Reader.IsWithinLimit.step`, `Csv.Reader.IsWithinLimit.endLine` — one character, one line.
* `Csv.isWithinLimit_read` — the records of a text.
-/

namespace Spreadsheet.Csv

variable {r r' : Reader} {mode : Mode} {c : Char}

/-- Whether a record has fields, none of which is longer than the limit. -/
def IsWithinLimit (fields : List String) : Prop :=
  fields ≠ [] ∧ ∀ text ∈ fields, text.length ≤ fieldLimit

namespace Reader

/-- Whether the fields and the records that have been read so far are within the limit. -/
structure IsWithinLimit (r : Reader) : Prop where
  fieldSize_eq : r.fieldSize = r.field.length
  fieldSize_le : r.fieldSize ≤ fieldLimit
  fields_le : ∀ field ∈ r.fields, field.length ≤ fieldLimit
  records_ne : ∀ fields ∈ r.records, fields ≠ []
  records_le : ∀ fields ∈ r.records, ∀ field ∈ fields, field.length ≤ fieldLimit

namespace IsWithinLimit

theorem start : Reader.start.IsWithinLimit := by
  constructor <;> simp [Reader.start]

/-- Nothing depends on the mode. -/
theorem withMode (h : r.IsWithinLimit) (mode : Mode) : { r with mode }.IsWithinLimit :=
  ⟨h.fieldSize_eq, h.fieldSize_le, h.fields_le, h.records_ne, h.records_le⟩

theorem saveField (h : r.IsWithinLimit) (mode : Mode) : (r.saveField mode).IsWithinLimit := by
  refine ⟨rfl, Nat.zero_le _, List.forall_mem_cons.2 ⟨?_, h.fields_le⟩, h.records_ne, h.records_le⟩
  rw [List.length_reverse, ← h.fieldSize_eq]
  exact h.fieldSize_le

theorem saveRecord (h : r.IsWithinLimit) : r.saveRecord.IsWithinLimit := by
  unfold Reader.saveRecord
  split
  · exact h.withMode _
  next hfields =>
    refine ⟨h.fieldSize_eq, h.fieldSize_le, by simp, List.forall_mem_cons.2 ⟨?_, h.records_ne⟩,
      List.forall_mem_cons.2 ⟨fun field hfield => ?_, h.records_le⟩⟩
    · simpa using hfields
    · exact h.fields_le field (List.mem_reverse.1 hfield)

theorem addChar (h : r.IsWithinLimit) (hadd : r.addChar mode c = .ok r') : r'.IsWithinLimit := by
  obtain ⟨hsize, rfl⟩ := addChar_eq_ok.1 hadd
  exact ⟨congrArg Nat.succ h.fieldSize_eq, hsize, h.fields_le, h.records_ne, h.records_le⟩

theorem beginField (h : r.IsWithinLimit) (hbegin : r.beginField c = .ok r') :
    r'.IsWithinLimit := by
  unfold Reader.beginField at hbegin
  grind [saveField, withMode, addChar]

/-- A character is taken only while there is room for it. -/
theorem step (h : r.IsWithinLimit) (hstep : r.step c = .ok r') : r'.IsWithinLimit := by
  unfold Reader.step at hstep
  grind [saveField, withMode, addChar, beginField]

theorem endLine (h : r.IsWithinLimit) : r.endLine.IsWithinLimit := by
  unfold Reader.endLine
  split
  · exact h.saveRecord
  · exact h.saveRecord
  · exact (h.saveField _).saveRecord
  · exact (h.saveField _).saveRecord
  · exact (h.saveField _).saveRecord
  · exact h

theorem finish (h : r.IsWithinLimit) : r.finish.IsWithinLimit := by
  unfold Reader.finish
  dsimp only
  split
  · exact (h.endLine.saveField _).saveRecord
  · exact h.endLine

theorem reading (h : r.IsWithinLimit) (error? : Option Error) :
    ∀ fields ∈ (r.reading error?).records, Csv.IsWithinLimit fields := by
  intro fields hfields
  obtain ⟨record, hrecord, rfl⟩ := List.mem_map.1 hfields
  rw [List.mem_reverse] at hrecord
  refine ⟨by simpa using h.records_ne record hrecord, fun text htext => ?_⟩
  obtain ⟨field, hfield, rfl⟩ := List.mem_map.1 htext
  simpa using h.records_le record hrecord field hfield

end IsWithinLimit

end Reader

/-! ## Texts -/

/-- What is read on from a reader within the limit is within the limit, up to an error or to the end
of the text. -/
theorem isWithinLimit_readFrom {s : List Char} (h : r.IsWithinLimit) :
    ∀ fields ∈ (readFrom r s).records, IsWithinLimit fields := by
  induction s generalizing r with
  | nil => exact h.finish.reading none
  | cons c s ih =>
    rw [readFrom]
    cases hstep : r.step c with
    | error e => exact h.reading (some e)
    | ok r' =>
      refine ih ?_
      split
      · exact (h.step hstep).endLine
      · exact h.step hstep

/-- The records of a text have fields, and none of them is longer than the limit. -/
theorem isWithinLimit_read (text : String) :
    ∀ fields ∈ (read text).records, IsWithinLimit fields :=
  isWithinLimit_readFrom Reader.IsWithinLimit.start

end Spreadsheet.Csv
