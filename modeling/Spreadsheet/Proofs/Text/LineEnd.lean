import Mathlib.Data.List.Basic
import Spreadsheet.Text.LineEnd

/-!
# Lines that end with a line feed

Line ends become line feeds one after the other, so a text may be cut anywhere but between a carriage
return and the line feed that belongs to it.

## Main definitions

* `Text.lineFeeds` — a text with line feeds at the ends of its lines.
* `Text.Normalizes` — what becomes of a text, whatever follows it.

## Main statements

* `Text.normalizes_self` — texts that are kept.
* `Text.normalizeLines_append` — where a text may be cut.
* `Text.normalizeLines_normalizeLines` — line feeds stay as they are.
-/

namespace Spreadsheet.Text

variable {s s' t t' rest : List Char} {c : Char}

/-- The text with a line feed at the end of each line. -/
def lineFeeds (text : String) : String :=
  String.ofList (normalizeLines text.toList)

/-! ## Single characters -/

theorem normalizeLines_cons (hc : c ≠ '\r') (s : List Char) :
    normalizeLines (c :: s) = c :: normalizeLines s := by
  rw [normalizeLines, if_neg hc]
  rintro s rfl
  exact absurd rfl hc

theorem normalizeLines_return (h : s.head? ≠ some '\n') :
    normalizeLines ('\r' :: s) = '\n' :: normalizeLines s := by
  rw [normalizeLines, if_pos rfl]
  rintro t _ rfl
  exact h rfl

/-! ## Texts that are kept -/

/-- Whether a text becomes another one, whatever follows it. -/
def Normalizes (s s' : List Char) : Prop :=
  ∀ rest, normalizeLines (s ++ rest) = s' ++ normalizeLines rest

theorem Normalizes.normalizeLines_eq (h : Normalizes s s') : normalizeLines s = s' := by
  simpa [normalizeLines] using h []

theorem Normalizes.append (h : Normalizes s s') (h' : Normalizes t t') :
    Normalizes (s ++ t) (s' ++ t') := by
  intro rest
  rw [List.append_assoc, h, h', List.append_assoc]

/-- Lines are kept where no carriage return ends them. -/
theorem normalizes_self (h : '\r' ∉ s) : Normalizes s s := by
  intro rest
  induction s with
  | nil => rfl
  | cons c s ih =>
    obtain ⟨hc, hs⟩ := not_or.1 (mt List.mem_cons.2 h)
    rw [List.cons_append, normalizeLines_cons (Ne.symm hc), ih hs, List.cons_append]

/-! ## Characters of lines -/

theorem mem_normalizeLines (h : c ∈ normalizeLines s) : c ≠ '\r' ∧ (c ∈ s ∨ c = '\n') := by
  fun_induction normalizeLines s with
  | case1 => cases h
  | case2 s ih =>
    obtain rfl | h := List.mem_cons.1 h
    · simp
    · grind
  | case3 d s _ ih =>
    obtain rfl | h := List.mem_cons.1 h
    · split <;> simp_all
    · grind

theorem mem_normalizeLines_of_mem (h : c ∈ s) (hc : c ≠ '\r') : c ∈ normalizeLines s := by
  fun_induction normalizeLines s with
  | case1 => cases h
  | case2 s ih => grind
  | case3 d s _ ih => grind

theorem length_normalizeLines_le (s : List Char) : (normalizeLines s).length ≤ s.length := by
  fun_induction normalizeLines s with
  | case1 => exact Nat.le_refl 0
  | case2 s ih => grind
  | case3 c s _ ih => grind

/-- Line feeds stay as they are. -/
theorem normalizeLines_normalizeLines (s : List Char) :
    normalizeLines (normalizeLines s) = normalizeLines s :=
  (normalizes_self fun h => (mem_normalizeLines h).1 rfl).normalizeLines_eq

/-! ## Cutting texts -/

/-- A text may be cut in front of everything but a line feed. -/
theorem normalizeLines_append (h : rest.head? ≠ some '\n') (s : List Char) :
    normalizeLines (s ++ rest) = normalizeLines s ++ normalizeLines rest := by
  fun_induction normalizeLines s with
  | case1 => rfl
  | case2 s ih => rw [List.cons_append, List.cons_append, normalizeLines, ih, List.cons_append]
  | case3 c s hpair ih =>
    rw [List.cons_append]
    by_cases hc : c = '\r'
    · subst hc
      -- this carriage return may be the last character of the text
      have hhead : (s ++ rest).head? ≠ some '\n' := by
        obtain - | ⟨d, s⟩ := s
        · exact h
        · intro hd
          obtain rfl : d = '\n' := Option.some.inj hd
          exact hpair s rfl rfl
      rw [normalizeLines_return hhead, ih, if_pos rfl, List.cons_append]
    · rw [normalizeLines_cons hc, ih, if_neg hc, List.cons_append]

/-- A line feed stays behind everything but a carriage return. -/
theorem normalizeLines_append_feed (h : s.getLast? ≠ some '\r') :
    normalizeLines (s ++ ['\n']) = normalizeLines s ++ ['\n'] := by
  fun_induction normalizeLines s with
  | case1 => rfl
  | case2 s ih =>
    rw [List.cons_append, List.cons_append, normalizeLines, ih (by grind), List.cons_append]
  | case3 c s hpair ih =>
    obtain - | ⟨d, s⟩ := s
    · have hc : c ≠ '\r' := by simpa using h
      rw [List.singleton_append, normalizeLines_cons hc, if_neg hc]
      rfl
    · rw [List.cons_append, normalizeLines, ih (by simpa using h), List.cons_append]
      rintro t rfl ht
      exact hpair s rfl (by rw [(List.cons.inj ht).1])

/-- A text becomes its lines if what follows it does not begin with a line feed. -/
theorem Normalizes.append_left (h : Normalizes t t') (hne : t ≠ []) (hhead : t.head? ≠ some '\n')
    (s : List Char) : Normalizes (s ++ t) (normalizeLines s ++ t') := by
  intro rest
  have hcut : (t ++ rest).head? ≠ some '\n' := by
    rwa [List.head?_append_of_ne_nil _ hne]
  rw [List.append_assoc, normalizeLines_append hcut, h, List.append_assoc]

end Spreadsheet.Text
