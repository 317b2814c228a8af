import Spreadsheet.Proofs.Cell.Spelling
import Spreadsheet.Proofs.Sheet.Edit

/-!
# Names under which texts are stored

Texts get into a sheet under the names of the cells that they are set for, in upper case and as they
are spelled. So an empty sheet that is edited has texts under spellings of positions only, but these
need not be the names that the positions are given. They are if texts are set under such names; then
there is one text for each position, and it is found under any spelling in another case.

## Main statements

* `Sheet.cells_edit` — what an edit does to the stored texts.
* `Sheet.mem_keys_editAll` — where the names of stored texts come from.
* `Sheet.names_canonical` — the names of an edited sheet.
* `Sheet.names_canonical_misspelled` — a cell with several names.
-/

namespace Spreadsheet

namespace Sheet

open CellName (IsCanonical isAtEnd ofPosition spelling split)

variable {s : Sheet} {e : Edit} {edits : List Edit} {name text k : String} {position : Nat × Nat}

/-! ## Single edits -/

/-- An edit erases some texts, or it sets one under a name of a cell. -/
theorem cells_edit (s : Sheet) (e : Edit) :
    (∃ names, (s.edit e).sheet.cells = s.cells.eraseAll names) ∨
      ∃ name text position, e = .set name text ∧ split name = .ok position ∧
        (s.edit e).sheet.cells = s.cells.insert (Text.upper name) text := by
  have heffect := effect_edit s e
  generalize s.edit e = r at heffect ⊢
  cases heffect with
  | @set name text position hsplit => exact .inr ⟨name, text, position, rfl, hsplit, rfl⟩
  | @clear name => exact .inl ⟨[Text.upper name], rfl⟩
  | fails | idle | addRow | addColumn => exact .inl ⟨[], rfl⟩
  | clearRow | deleteRow | deleteColumn => exact .inl ⟨_, rfl⟩

theorem mem_keys_edit (h : k ∈ (s.edit e).sheet.cells.keys) :
    k ∈ s.cells.keys ∨ ∃ name text position, e = .set name text ∧ split name = .ok position ∧
      k = Text.upper name := by
  obtain ⟨names, hcells⟩ | ⟨name, text, position, rfl, hsplit, hcells⟩ := cells_edit s e
  · rw [hcells] at h
    exact .inl (OrderedMap.mem_keys_eraseAll.1 h).1
  · rw [hcells] at h
    obtain rfl | h := OrderedMap.mem_keys_insert.1 h
    · exact .inr ⟨name, text, position, rfl, hsplit, rfl⟩
    · exact .inl h

/-- A text that is set for a cell is found under the same spelling in any case, and under no other. -/
theorem get_set (h : split name = .ok position) (text other : String) :
    (s.set name text).sheet.get other =
      if Text.upper other = Text.upper name then text else s.get other := by
  rw [set_of_ok h]
  split
  -- the text is there already, so nothing is stored
  next hsame =>
    split
    next hother => rw [← hsame, done, get, get, text?, text?, hother]
    next => rfl
  next =>
    rw [done, get, text?, OrderedMap.get?_insert]
    split <;> rfl

/-! ## Several edits -/

/-- The names under which texts are stored were there before, or texts were set for them. -/
theorem mem_keys_editAll (h : k ∈ (s.editAll edits).cells.keys) :
    k ∈ s.cells.keys ∨ ∃ name text position, Edit.set name text ∈ edits ∧
      split name = .ok position ∧ k = Text.upper name := by
  induction edits generalizing s with
  | nil => exact .inl h
  | cons e edits ih =>
    obtain h | ⟨name, text, position, hmem, hset⟩ := ih (s := (s.edit e).sheet) h
    · obtain h | ⟨name, text, position, rfl, hset⟩ := mem_keys_edit h
      · exact .inl h
      · exact .inr ⟨name, text, position, List.mem_cons_self, hset⟩
    · exact .inr ⟨name, text, position, List.mem_cons_of_mem _ hmem, hset⟩

/-- An empty sheet that is edited, by failing edits too, has texts under spellings of positions, which
are the names of these positions unless they have the row zero, zeros in front of the row, or a line
end behind it. If all cells that texts are set for are named by their positions, then so are the
stored texts, and none of them are in the same position. A text that is set for a cell under such a
name is found under every other spelling of this kind. -/
theorem names_canonical (s : Sheet) (edits : List Edit) (hs : s.cells = .empty) :
    (∀ k ∈ (s.editAll edits).cells.keys, ∃ row column zeros final,
      k = spelling row column zeros final ∧ isAtEnd final ∧ split k = .ok (row, column) ∧
        (IsCanonical k ↔ 1 ≤ row ∧ zeros = 0 ∧ final = [])) ∧
    ((∀ name text position, Edit.set name text ∈ edits → split name = .ok position →
        IsCanonical (Text.upper name)) →
      (∀ k ∈ (s.editAll edits).cells.keys, IsCanonical k) ∧
      ∀ k ∈ (s.editAll edits).cells.keys, ∀ k' ∈ (s.editAll edits).cells.keys,
        split k = split k' → k = k') ∧
    ∀ m n text position, split m = .ok position → split n = .ok position →
      IsCanonical (Text.upper m) → IsCanonical (Text.upper n) →
        ((s.editAll edits).set m text).sheet.get n = text := by
  have hkeys : ∀ k ∈ (s.editAll edits).cells.keys, ∃ name text position,
      Edit.set name text ∈ edits ∧ split name = .ok position ∧ k = Text.upper name := by
    intro k hk
    obtain hempty | hset := mem_keys_editAll hk
    · rw [hs] at hempty
      cases hempty
    · exact hset
  refine ⟨fun k hk => ?_, fun hcanonical => ?_, fun m n text position hm hn hm' hn' => ?_⟩
  · obtain ⟨name, text, ⟨row, column⟩, -, hsplit, rfl⟩ := hkeys k hk
    obtain ⟨-, zeros, final, hend, -, hname⟩ := CellName.split_eq_ok.1 hsplit
    rw [← CellName.split_upper, hname] at hsplit
    rw [hname]
    exact ⟨row, column, zeros, final, rfl, hend, hsplit, CellName.isCanonical_spelling hsplit⟩
  · have hall : ∀ k ∈ (s.editAll edits).cells.keys, IsCanonical k := by
      intro k hk
      obtain ⟨name, text, position, hmem, hsplit, rfl⟩ := hkeys k hk
      exact hcanonical name text position hmem hsplit
    exact ⟨hall, fun k hk k' hk' => (hall k hk).eq_of_split (hall k' hk')⟩
  · have hupper : Text.upper n = Text.upper m := by
      refine hn'.eq_of_split hm' ?_
      rw [CellName.split_upper.2 hm, CellName.split_upper.2 hn]
    rw [get_set hm, if_pos hupper]

/-- Texts for a cell, for a name of no cell, and for a cell of a column that is removed again. -/
def settings : List Edit :=
  [.set "b2" "x", .set "1A" "y", .set "e5" "z", .deleteColumn]

/-- One text is left, and what is set for `B2` is found under `b2`. -/
theorem names_canonical_settings :
    ((ofTexts 5 5 .empty).editAll settings).cells.keys = ["B2"] ∧ IsCanonical "B2" ∧
      ((((ofTexts 5 5 .empty).editAll settings).set "B2" "w").sheet.get "b2" = "w") := by
  have hkeys : ((ofTexts 5 5 .empty).editAll settings).cells.keys = ["B2"] := by decide +kernel
  have hfirst : IsCanonical (Text.upper "b2") := ⟨2, 2, by decide +kernel⟩
  have hthird : IsCanonical (Text.upper "e5") := ⟨5, 5, by decide +kernel⟩
  have hupper : IsCanonical (Text.upper "B2") := ⟨2, 2, by decide +kernel⟩
  have hcanonical : ∀ name text position, Edit.set name text ∈ settings →
      split name = .ok position → IsCanonical (Text.upper name) := by
    intro name text position hmem hsplit
    simp only [settings, List.mem_cons, List.not_mem_nil, or_false, Edit.set.injEq,
      reduceCtorEq] at hmem
    obtain ⟨rfl, -⟩ | ⟨rfl, -⟩ | ⟨rfl, -⟩ := hmem
    · exact hfirst
    · have hrefused : split "1A" = .error (.invalidReference "1A") := by decide +kernel
      cases hrefused.symm.trans hsplit
    · exact hthird
  obtain ⟨-, hplain, hfound⟩ := names_canonical (ofTexts 5 5 .empty) settings rfl
  have hget := hfound "B2" "b2" "w" (2, 2) (by decide +kernel) (by decide +kernel)
    hupper hfirst
  have hmem : "B2" ∈ ((ofTexts 5 5 .empty).editAll settings).cells.keys := by
    rw [hkeys]
    exact List.mem_singleton_self _
  exact ⟨hkeys, (hplain hcanonical).1 "B2" hmem, hget⟩

/-- The cell `A1` under two names that it is not given, and a cell in no row. What is stored under
these names is not found under `A1`. -/
theorem names_canonical_misspelled :
    ((ofTexts 5 5 .empty).editAll [.set "A01" "x", .set "a1\n" "y", .set "A0" "z"]).cells.entries =
        [("A01", "x"), ("A1\n", "y"), ("A0", "z")] ∧
      split "A01" = .ok (1, 1) ∧ split "A1\n" = .ok (1, 1) ∧ split "A0" = .ok (0, 1) ∧
      ofPosition 1 1 = .ok "A1" ∧
      ((ofTexts 5 5 .empty).editAll [.set "A01" "x", .set "a1\n" "y", .set "A0" "z"]).get "A1" =
        "" := by
  decide +kernel

end Sheet

end Spreadsheet
