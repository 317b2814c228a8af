import Spreadsheet.Proofs.Xml.Element

/-!
# Lines of documents

Before a document is read its lines are made to end with line feeds. In a document that is written
this concerns the texts in it alone, since tags and breaks have no carriage returns and no text is
followed by a line feed. So a document is read as the one that is written for texts that have line
feeds already. A character that no document may hold stays, and nothing is read then.

## Main statements

* `Xml.normalizeLines_escape` — references do not matter for line ends.
* `Xml.normalizes_leaf`, `Xml.normalizes_group` — elements with line ends in their texts.
* `Xml.read?_congr_of_normalizes` — the root that is read in spite of line ends.
* `Xml.read?_document_eq_none` — documents with a character that they may not hold.
-/

namespace Spreadsheet.Xml

open Text (Normalizes lineFeeds normalizeLines)

variable {s s' : List Char} {c : Char} {name text : String} {elements elements' : List (List Char)}

/-! ## References -/

theorem return_notMem_escapeChar (h : c ≠ '\r') : '\r' ∉ escapeChar c := by
  obtain rfl | rfl | rfl | hplain := eq_markup_or_ne c
  · decide
  · decide
  · decide
  · rw [escapeChar_of_ne hplain, List.mem_singleton]
    exact h.symm

theorem head?_escape_ne (h : s.head? ≠ some '\n') : (escape s).head? ≠ some '\n' := by
  obtain - | ⟨c, s⟩ := s
  · exact h
  rw [escape, List.flatMap_cons]
  obtain rfl | rfl | rfl | hplain := eq_markup_or_ne c
  · simp [escapeChar]
  · simp [escapeChar]
  · simp [escapeChar]
  · rw [escapeChar_of_ne hplain]
    exact h

/-- The lines of a text that is written are those of the text. -/
theorem normalizeLines_escape (s : List Char) :
    normalizeLines (escape s) = escape (normalizeLines s) := by
  fun_induction normalizeLines s with
  | case1 => rfl
  | case2 s ih => exact congrArg ('\n' :: ·) ih
  | case3 c s hpair ih =>
    by_cases hc : c = '\r'
    · subst hc
      have hhead : s.head? ≠ some '\n' := by
        intro hd
        obtain ⟨s, rfl⟩ := List.head?_eq_some_iff.1 hd
        exact hpair s rfl rfl
      rw [if_pos rfl]
      exact (Text.normalizeLines_return (head?_escape_ne hhead)).trans (congrArg ('\n' :: ·) ih)
    · rw [if_neg hc, escape, List.flatMap_cons, ← escape,
        Text.normalizes_self (return_notMem_escapeChar hc), ih]
      rfl

/-! ## Elements -/

/-- Between tags content becomes what it is made in front of a tag. -/
theorem normalizes_between {content content' : List Char} (hname : IsPlainName name.toList)
    (h : ∀ tag, IsClean ('<' :: tag) → Normalizes (content ++ '<' :: tag) (content' ++ '<' :: tag)) :
    Normalizes (between name content) (between name content') := by
  have hmarks : IsClean ['<'] ∧ IsClean ['>'] ∧ IsClean ['<', '/'] := by
    decide
  have hstart : IsClean ('<' :: name.toList ++ ['>']) :=
    (hmarks.1.append hname.isClean).append hmarks.2.1
  have hend : IsClean ('<' :: '/' :: name.toList ++ ['>']) :=
    (hmarks.2.2.append hname.isClean).append hmarks.2.1
  have hsplit : ∀ content, between name content =
      ('<' :: name.toList ++ ['>']) ++ (content ++ ('<' :: '/' :: name.toList ++ ['>'])) := by
    simp [between]
  rw [hsplit, hsplit]
  exact hstart.normalizes.append (h _ hend)

/-- An element with text becomes the element with the lines of the text. -/
theorem normalizes_leaf (hname : IsPlainName name.toList) (text : String) :
    Normalizes (leaf name text) (leaf name (lineFeeds text)) := by
  by_cases hempty : text = ""
  · subst hempty
    exact (isClean_emptyTag hname).normalizes
  · have hfilled : lineFeeds text ≠ "" := by
      intro hnone
      have hlines : normalizeLines text.toList = [] := by
        simpa [lineFeeds] using congrArg String.toList hnone
      unfold normalizeLines at hlines
      split at hlines
      next hnil => exact hempty (by simpa using hnil)
      all_goals cases hlines
    rw [leaf, leaf, if_neg hempty, if_neg hfilled]
    refine normalizes_between hname fun tag htag => ?_
    rw [lineFeeds, String.toList_ofList, ← normalizeLines_escape]
    exact htag.normalizes.append_left (by simp) (by simp) _

theorem normalizes_lines (h : List.Forall₂ Normalizes elements elements') (level : Nat) :
    Normalizes (elements.flatMap (newLine level ++ ·)) (elements'.flatMap (newLine level ++ ·)) := by
  induction h with
  | nil => exact Text.normalizes_self List.not_mem_nil
  | cons hs _ ih => exact ((isClean_newLine level).normalizes.append hs).append ih

/-- An element with elements in it becomes the one with what these become. -/
theorem normalizes_group (hname : IsPlainName name.toList)
    (h : List.Forall₂ Normalizes elements elements') (level : Nat) :
    Normalizes (group level name elements) (group level name elements') := by
  cases h with
  | nil => exact (isClean_emptyTag hname).normalizes
  | cons hs hrest =>
    refine normalizes_between hname fun tag htag => ?_
    have hlines := normalizes_lines (.cons hs hrest) (level + 1)
    exact (hlines.append (isClean_newLine level).normalizes).append htag.normalizes

/-! ## Characters that are written -/

theorem mem_escape_of_ne (h : c ∈ s) (hc : c ≠ '&' ∧ c ≠ '<' ∧ c ≠ '>') : c ∈ escape s :=
  List.mem_flatMap.2 ⟨c, h, by rw [escapeChar_of_ne hc]; exact List.mem_singleton_self c⟩

theorem mem_leaf (h : c ∈ text.toList) (hc : c ≠ '&' ∧ c ≠ '<' ∧ c ≠ '>') : c ∈ leaf name text := by
  have hfilled : text ≠ "" := by
    rintro rfl
    cases h
  simp [leaf, hfilled, between, mem_escape_of_ne h hc]

theorem mem_group (hs : s ∈ elements) (h : c ∈ s) (level : Nat) : c ∈ group level name elements := by
  have hsome : elements.isEmpty = false := by
    simpa using List.ne_nil_of_mem hs
  have hline : c ∈ elements.flatMap (newLine (level + 1) ++ ·) :=
    List.mem_flatMap.2 ⟨s, hs, List.mem_append_right _ h⟩
  rw [group, hsome, if_neg (by simp), between]
  simp [hline]

/-! ## Documents -/

theorem normalizes_declaration : Normalizes declaration declaration :=
  IsClean.normalizes (by decide +kernel)

/-- A document is read as what it becomes. -/
theorem read?_congr_of_normalizes (h : Normalizes s s') :
    read? (document s) = read? (document s') := by
  have hlines := (normalizes_declaration.append h).normalizeLines_eq
  have hkept : normalizeLines (declaration ++ s') = declaration ++ s' := by
    rw [← hlines, Text.normalizeLines_normalizeLines]
  rw [read?, read?, document, document, String.toList_ofList, String.toList_ofList, hlines, hkept]

/-- A document with a character that it may not hold is not read. -/
theorem read?_document_eq_none (hmem : c ∈ s) (hc : isAllowed c = false) :
    read? (document s) = none := by
  have hreturn : c ≠ '\r' := by
    rintro rfl
    cases hc
  have hall : (declaration ++ normalizeLines s).all isAllowed = false := by
    rw [List.all_eq_false]
    exact ⟨c, List.mem_append_right _ (Text.mem_normalizeLines_of_mem hmem hreturn), by simp [hc]⟩
  have hmark : skipByteOrderMark (declaration ++ normalizeLines s) = declaration ++ normalizeLines s :=
    rfl
  rw [read?, document, String.toList_ofList, normalizes_declaration]
  simp only [hmark, hall]
  rfl

end Spreadsheet.Xml
