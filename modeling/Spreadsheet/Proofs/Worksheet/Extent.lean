import Mathlib.Order.Bounds.Basic
import Spreadsheet.Proofs.Cell.Spelling
import Spreadsheet.Worksheet.Reading

/-!
# The used range of a worksheet

The used range reaches to the last row and to the last column in which there are cells. It consists of
the positions up to there, which are read row by row. So cells that come into being within it leave it
as it is.

## Main definitions

* `Position.Before` — the order in which positions are read.
* `Worksheet.Covers` — the positions of the used range.

## Main statements

* `Position.split_name`, `Position.name_inj` — positions and the names of their cells.
* `Worksheet.isGreatest_rows`, `Worksheet.isGreatest_columns` — how far the used range reaches.
* `Worksheet.mem_range`, `Worksheet.pairwise_range` — the positions of the used range in order.
* `Worksheet.rows_append_blanks`, `Worksheet.columns_append_blanks` — cells that leave it as it is.
-/

namespace Spreadsheet

/-! ## Positions -/

namespace Position

variable {p q : Position} {row column : Nat}

/-- Whether a position is read before another one: in a row above, or further left in the same row. -/
def Before (p q : Position) : Prop :=
  p.row < q.row ∨ p.row = q.row ∧ p.column < q.column

theorem Before.ne (h : p.Before q) : p ≠ q := by
  rintro rfl
  unfold Before at h
  omega

theorem of_eq_ok : Position.of row column = .ok p ↔ p.row = row ∧ p.column = column := by
  unfold Position.of
  constructor
  · intro h
    split at h
    · split at h
      · split at h
        · obtain rfl := Except.ok.inj h
          exact ⟨rfl, rfl⟩
        · cases h
      · cases h
    · cases h
  · rintro ⟨rfl, rfl⟩
    rw [dif_pos ⟨p.one_le_row, p.one_le_column⟩, dif_pos p.row_le, dif_pos p.column_le]

theorem toOption_of : (Position.of row column).toOption = some p ↔
    p.row = row ∧ p.column = column := by
  rw [← of_eq_ok]
  cases Position.of row column <;> simp [Except.toOption]

theorem of_row_column (p : Position) : Position.of p.row p.column = .ok p :=
  of_eq_ok.2 ⟨rfl, rfl⟩

theorem ext_row_column (hrow : p.row = q.row) (hcolumn : p.column = q.column) : p = q :=
  Except.ok.inj ((of_row_column p).symm.trans (of_eq_ok.2 ⟨hrow.symm, hcolumn.symm⟩))

/-! ## Names -/

theorem name_eq_spelling (p : Position) : p.name = CellName.spelling p.row p.column 0 [] := by
  simp [name, CellName.spelling]

theorem upper_name (p : Position) : Text.upper p.name = p.name := by
  rw [name_eq_spelling, CellName.upper_spelling rfl]

/-- The name of a position is split into its row and its column. -/
theorem split_name (p : Position) : CellName.split p.name = .ok (p.row, p.column) := by
  have hlength : (Nat.toDigits 10 p.row).length ≤ Text.digitLimit := by
    rw [Nat.length_toDigits_le_iff (by decide) (by decide)]
    exact Nat.lt_of_le_of_lt p.row_le (Nat.lt_of_lt_of_le (by decide : lastRow < 10 ^ 7)
      (Nat.pow_le_pow_right (by decide) (by decide)))
  rw [CellName.split_eq_ok]
  exact ⟨⟨p.one_le_column, p.column_le⟩, 0, [], rfl, by omega,
    p.upper_name.trans p.name_eq_spelling⟩

theorem name_inj : p.name = q.name ↔ p = q := by
  refine ⟨fun h => ?_, congrArg name⟩
  have hsplit := p.split_name
  rw [h, q.split_name] at hsplit
  obtain ⟨hrow, hcolumn⟩ := Prod.mk.inj (Except.ok.inj hsplit)
  exact ext_row_column hrow.symm hcolumn.symm

end Position

/-! ## Greatest numbers -/

section Greatest

variable {α : Type} {l : List α} {f : α → Nat} {k n : Nat}

theorem foldl_max_le : l.foldl (fun n a => max n (f a)) k ≤ n ↔ k ≤ n ∧ ∀ a ∈ l, f a ≤ n := by
  induction l generalizing k with
  | nil => simp
  | cons a l ih =>
    rw [List.foldl_cons, ih, List.forall_mem_cons, Nat.max_le, and_assoc]

theorem foldl_max_mem : l.foldl (fun n a => max n (f a)) k = k ∨
    ∃ a ∈ l, f a = l.foldl (fun n a => max n (f a)) k := by
  induction l generalizing k with
  | nil => exact .inl rfl
  | cons a l ih =>
    rw [List.foldl_cons]
    obtain h | ⟨b, hb, h⟩ := ih (k := max k (f a))
    · rw [h]
      obtain hle | hle := Nat.le_total (f a) k
      · exact .inl (Nat.max_eq_left hle)
      · exact .inr ⟨a, List.mem_cons_self, (Nat.max_eq_right hle).symm⟩
    · exact .inr ⟨b, List.mem_cons_of_mem _ hb, h⟩

/-- The greatest of several numbers and of the first one. -/
theorem isGreatest_foldl_max :
    IsGreatest (insert k {n | ∃ a ∈ l, f a = n}) (l.foldl (fun n a => max n (f a)) k) := by
  obtain ⟨hk, hl⟩ := foldl_max_le.1 (Nat.le_refl (l.foldl (fun n a => max n (f a)) k))
  refine ⟨foldl_max_mem, ?_⟩
  rintro n (rfl | ⟨a, ha, rfl⟩)
  · exact hk
  · exact hl a ha

end Greatest

namespace Worksheet

variable {w : Worksheet} {p : Position} {n : Nat}

/-! ## The extent -/

theorem isGreatest_rows (w : Worksheet) :
    IsGreatest (insert 1 {n | ∃ p ∈ w.positions, p.row = n}) w.rows :=
  isGreatest_foldl_max

theorem isGreatest_columns (w : Worksheet) :
    IsGreatest (insert 1 {n | ∃ p ∈ w.positions, p.column = n}) w.columns :=
  isGreatest_foldl_max

theorem rows_le (w : Worksheet) : w.rows ≤ Position.lastRow :=
  foldl_max_le.2 ⟨by decide, fun p _ => p.row_le⟩

theorem columns_le (w : Worksheet) : w.columns ≤ Column.last :=
  foldl_max_le.2 ⟨by decide, fun p _ => p.column_le⟩

/-- Whether a position belongs to the used range. -/
def Covers (w : Worksheet) (p : Position) : Prop :=
  p.row ≤ w.rows ∧ p.column ≤ w.columns

theorem covers_of_mem (h : p ∈ w.positions) : w.Covers p :=
  ⟨(isGreatest_rows w).2 (.inr ⟨p, h, rfl⟩), (isGreatest_columns w).2 (.inr ⟨p, h, rfl⟩)⟩

/-! ## Cells without a value -/

section Blanks

variable {ps : List Position}

theorem mem_positions_append_blanks :
    p ∈ ({ w with blanks := ps ++ w.blanks } : Worksheet).positions ↔ p ∈ ps ∨ p ∈ w.positions := by
  simp only [positions, List.mem_append]
  exact or_left_comm

/-- Cells that come into being within the used range leave its rows as they are. -/
theorem rows_append_blanks (h : ∀ p ∈ ps, w.Covers p) :
    ({ w with blanks := ps ++ w.blanks } : Worksheet).rows = w.rows := by
  refine Nat.le_antisymm (foldl_max_le.2 ⟨?_, fun p hp => ?_⟩) (foldl_max_le.2 ⟨?_, fun p hp => ?_⟩)
  · exact (isGreatest_rows w).2 (.inl rfl)
  · exact (mem_positions_append_blanks.1 hp).elim (fun hp => (h p hp).1) fun hp =>
      (covers_of_mem hp).1
  · exact (isGreatest_rows _).2 (.inl rfl)
  · exact (covers_of_mem (mem_positions_append_blanks.2 (.inr hp))).1

/-- Cells that come into being within the used range leave its columns as they are. -/
theorem columns_append_blanks (h : ∀ p ∈ ps, w.Covers p) :
    ({ w with blanks := ps ++ w.blanks } : Worksheet).columns = w.columns := by
  refine Nat.le_antisymm (foldl_max_le.2 ⟨?_, fun p hp => ?_⟩) (foldl_max_le.2 ⟨?_, fun p hp => ?_⟩)
  · exact (isGreatest_columns w).2 (.inl rfl)
  · exact (mem_positions_append_blanks.1 hp).elim (fun hp => (h p hp).2) fun hp =>
      (covers_of_mem hp).2
  · exact (isGreatest_columns _).2 (.inl rfl)
  · exact (covers_of_mem (mem_positions_append_blanks.2 (.inr hp))).2

end Blanks

/-! ## The range in order -/

theorem mem_range : p ∈ w.range ↔ w.Covers p := by
  simp only [range, List.mem_flatMap, List.mem_filterMap, List.mem_range, Position.toOption_of]
  constructor
  · rintro ⟨row, hrow, column, hcolumn, hp, hp'⟩
    exact ⟨by omega, by omega⟩
  · rintro ⟨hrow, hcolumn⟩
    have hfirst := p.one_le_row
    have hleft := p.one_le_column
    exact ⟨p.row - 1, by omega, p.column - 1, by omega, by omega, by omega⟩

/-- The used range is read row by row, and each row from left to right. -/
theorem pairwise_range (w : Worksheet) : w.range.Pairwise Position.Before := by
  rw [range, List.pairwise_flatMap]
  constructor
  · intro row _
    rw [List.pairwise_filterMap]
    refine List.pairwise_lt_range.imp fun hlt p hp q hq => ?_
    obtain ⟨hp, hp'⟩ := Position.toOption_of.1 hp
    obtain ⟨hq, hq'⟩ := Position.toOption_of.1 hq
    exact .inr ⟨by omega, by omega⟩
  · refine List.pairwise_lt_range.imp fun hlt p hp q hq => ?_
    obtain ⟨column, -, hp⟩ := List.mem_filterMap.1 hp
    obtain ⟨column', -, hq⟩ := List.mem_filterMap.1 hq
    have hrow := (Position.toOption_of.1 hp).1
    have hrow' := (Position.toOption_of.1 hq).1
    exact .inl (by omega)

end Worksheet

end Spreadsheet
