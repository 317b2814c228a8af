import Spreadsheet.Xml.Element

/-!
# Text that is written into documents

Text is written with references in place of the characters that would be markup. So nothing in it is
taken for a tag or for the end of a section, and reading the references gives the text back.

## Main statements

* `Xml.unescape_escape` — reading the references of a text that was written.
* `Xml.isContent_escape` — what is written may stand in an element.
-/

namespace Spreadsheet.Xml

variable {s : List Char} {c d : Char}

/-- A character is markup, for which there is a reference, or it is none. -/
theorem eq_markup_or_ne (c : Char) :
    c = '&' ∨ c = '<' ∨ c = '>' ∨ (c ≠ '&' ∧ c ≠ '<' ∧ c ≠ '>') := by
  grind

theorem escapeChar_of_ne (h : c ≠ '&' ∧ c ≠ '<' ∧ c ≠ '>') : escapeChar c = [c] := by
  simp [escapeChar, h]

/-- The reference for a character is read as the character. -/
theorem unescapeFrom_escapeChar (c : Char) (s : List Char) :
    unescapeFrom none (escapeChar c ++ s) = (unescapeFrom none s).map (c :: ·) := by
  have hreference : ∀ (c : Char) (r : Option (List Char)),
      (do return c :: (← r)) = r.map (c :: ·) := by
    intro c r
    cases r <;> rfl
  obtain rfl | rfl | rfl | hplain := eq_markup_or_ne c
  · exact hreference _ _
  · exact hreference _ _
  · exact hreference _ _
  · rw [escapeChar_of_ne hplain, List.singleton_append, unescapeFrom]
    exact if_neg hplain.1

/-- A text that is written is read as itself. -/
theorem unescape_escape (s : List Char) : unescape (escape s) = some s := by
  induction s with
  | nil => rfl
  | cons c s ih =>
    rw [unescape] at ih ⊢
    rw [escape, List.flatMap_cons, unescapeFrom_escapeChar, ← escape, ih]
    rfl

/-- What is written consists of the characters of the text and those of references. -/
theorem mem_escape (h : d ∈ escape s) : d ∈ s ∨ d ∈ "&ltgamp;".toList := by
  obtain ⟨c, hc, hd⟩ := List.mem_flatMap.1 h
  obtain rfl | rfl | rfl | hplain := eq_markup_or_ne c
  · exact .inr ((show "&amp;".toList ⊆ "&ltgamp;".toList by decide) hd)
  · exact .inr ((show "&lt;".toList ⊆ "&ltgamp;".toList by decide) hd)
  · exact .inr ((show "&gt;".toList ⊆ "&ltgamp;".toList by decide) hd)
  · rw [escapeChar_of_ne hplain, List.mem_singleton] at hd
    exact .inl (hd ▸ hc)

theorem notMem_escapeChar (c : Char) : '<' ∉ escapeChar c ∧ '>' ∉ escapeChar c := by
  obtain rfl | rfl | rfl | hplain := eq_markup_or_ne c
  · decide
  · decide
  · decide
  · rw [escapeChar_of_ne hplain]
    simp [hplain.2.1.symm, hplain.2.2.symm]

theorem notMem_escape (s : List Char) : '<' ∉ escape s ∧ '>' ∉ escape s := by
  constructor <;> intro h <;> obtain ⟨c, -, hc⟩ := List.mem_flatMap.1 h
  · exact (notMem_escapeChar c).1 hc
  · exact (notMem_escapeChar c).2 hc

theorem escape_ne_nil (h : s ≠ []) : escape s ≠ [] := by
  obtain ⟨c, s, rfl⟩ := List.exists_cons_of_ne_nil h
  intro hnil
  have hread := unescape_escape (c :: s)
  rw [hnil] at hread
  cases hread

/-- A mark does not occur where one of its characters does not. -/
theorem splitAt?_eq_none {mark : List Char} (hmem : c ∈ mark) (h : c ∉ s) :
    splitAt? mark s = none := by
  induction s with
  | nil =>
    cases mark with
    | nil => cases hmem
    | cons => rfl
  | cons d s ih =>
    have hhead : mark.isPrefixOf (d :: s) = false := by
      rw [Bool.eq_false_iff, ne_eq, List.isPrefixOf_iff_prefix]
      exact fun hhead => h (hhead.subset hmem)
    rw [splitAt?, hhead, ih fun hs => h (List.mem_cons_of_mem d hs)]
    rfl

theorem isContent_escape (s : List Char) : Progress.isContent (escape s) := by
  rw [Progress.isContent, splitAt?_eq_none (c := '>') (by decide) (notMem_escape s).2]
  rfl

end Spreadsheet.Xml
