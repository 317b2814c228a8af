/-!
# Letters of ASCII

Letters and their cases by code points. Characters are compared through their code points, so that
facts about single characters are inequalities of numbers.

## Main statements

* `toNat_toLower`, `toNat_toUpper` — the code points of both cases.
* `eq_of_toLower_eq` — what is no letter is the lower case of itself only.
-/

namespace Spreadsheet

variable {c d : Char} {s cs ds : List Char}

theorem isUpper_iff : c.isUpper ↔ 0x41 ≤ c.toNat ∧ c.toNat ≤ 0x5a := by
  show decide (c.val ≥ 0x41 ∧ c.val ≤ 0x5a) = true ↔ _
  rw [decide_eq_true_eq]
  rfl

theorem isLower_iff : c.isLower ↔ 0x61 ≤ c.toNat ∧ c.toNat ≤ 0x7a := by
  show (decide (c.val ≥ 0x61) && decide (c.val ≤ 0x7a)) = true ↔ _
  rw [Bool.and_eq_true, decide_eq_true_eq, decide_eq_true_eq]
  rfl

theorem isAlpha_iff : c.isAlpha ↔
    (0x41 ≤ c.toNat ∧ c.toNat ≤ 0x5a) ∨ (0x61 ≤ c.toNat ∧ c.toNat ≤ 0x7a) := by
  show (c.isUpper || c.isLower) = true ↔ _
  rw [Bool.or_eq_true, isUpper_iff, isLower_iff]

theorem isDigit_iff : c.isDigit ↔ 0x30 ≤ c.toNat ∧ c.toNat ≤ 0x39 := by
  simp [Char.isDigit, UInt32.le_iff_toNat_le]

theorem isAlpha_of_isDigit (h : c.isDigit) : c.isAlpha = false := by
  rw [isDigit_iff] at h
  rw [Bool.eq_false_iff, ne_eq, isAlpha_iff]
  omega

theorem toNat_ofNat {n : Nat} (h : n < 0xd800) : (Char.ofNat n).toNat = n := by
  rw [Char.ofNat, dif_pos (.inl h)]
  rfl

theorem toNat_toLower (c : Char) :
    c.toLower.toNat = if 0x41 ≤ c.toNat ∧ c.toNat ≤ 0x5a then c.toNat + 0x20 else c.toNat := by
  unfold Char.toLower
  simp only [ge_iff_le, UInt32.le_iff_toNat_le]
  split
  next h =>
    have hn : 0x41 ≤ c.toNat ∧ c.toNat ≤ 0x5a := h
    rw [if_pos hn]
    show (c.val + 0x20).toNat = _
    have hlt : c.val.toNat + 0x20 < 2 ^ 32 := by
      have : c.val.toNat = c.toNat := rfl
      omega
    rw [UInt32.toNat_add]
    exact Nat.mod_eq_of_lt hlt
  next h => exact (if_neg h).symm

theorem toNat_toUpper (c : Char) :
    c.toUpper.toNat = if 0x61 ≤ c.toNat ∧ c.toNat ≤ 0x7a then c.toNat - 0x20 else c.toNat := by
  unfold Char.toUpper
  simp only [UInt32.le_iff_toNat_le]
  split
  next h =>
    have hn : 0x61 ≤ c.toNat ∧ c.toNat ≤ 0x7a := h
    rw [if_pos hn]
    show (c.val + (0x41 - 0x61)).toNat = _
    rw [UInt32.toNat_add]
    simp
    omega
  next h => exact (if_neg h).symm

theorem isAlpha_toLower (c : Char) : c.toLower.isAlpha = c.isAlpha := by
  rw [Bool.eq_iff_iff, isAlpha_iff, isAlpha_iff, toNat_toLower]
  split <;> omega

theorem isDigit_toLower (c : Char) : c.toLower.isDigit = c.isDigit := by
  rw [Bool.eq_iff_iff, isDigit_iff, isDigit_iff, toNat_toLower]
  grind

theorem toLower_toLower (c : Char) : c.toLower.toLower = c.toLower := by
  rw [← Char.toNat_inj, toNat_toLower, toNat_toLower]
  grind

theorem toUpper_toLower (c : Char) : c.toLower.toUpper = c.toUpper := by
  rw [← Char.toNat_inj, toNat_toUpper, toNat_toUpper, toNat_toLower]
  grind

theorem toUpper_toUpper (c : Char) : c.toUpper.toUpper = c.toUpper := by
  rw [← Char.toNat_inj, toNat_toUpper, toNat_toUpper]
  grind

theorem toLower_eq_self (h : c.isAlpha = false) : c.toLower = c := by
  rw [Bool.eq_false_iff, ne_eq, isAlpha_iff] at h
  rw [← Char.toNat_inj, toNat_toLower, if_neg]
  omega

theorem toUpper_eq_self (h : c.isDigit) : c.toUpper = c := by
  rw [isDigit_iff] at h
  rw [← Char.toNat_inj, toNat_toUpper, if_neg]
  omega

theorem map_toUpper_eq_self (h : ∀ c ∈ s, c.isDigit) : s.map Char.toUpper = s := by
  have hself : ∀ c ∈ s, c.toUpper = id c := fun c hc => toUpper_eq_self (h c hc)
  rw [List.map_congr_left hself, List.map_id]

/-- A character that is no letter is the lower case of itself only. -/
theorem eq_of_toLower_eq (hd : d.isAlpha = false) (h : c.toLower = d) : c = d := by
  rw [← h, isAlpha_toLower] at hd
  rw [← h, toLower_eq_self hd]

theorem toLower_eq_iff (hd : d.isAlpha = false) : c.toLower = d ↔ c = d := by
  refine ⟨eq_of_toLower_eq hd, ?_⟩
  rintro rfl
  exact toLower_eq_self hd

theorem map_toLower_eq_self (h : ∀ c ∈ s, c.isAlpha = false) : s.map Char.toLower = s := by
  have hself : ∀ c ∈ s, c.toLower = id c := fun c hc => toLower_eq_self (h c hc)
  rw [List.map_congr_left hself, List.map_id]

theorem eq_of_map_toLower_eq (hds : ∀ c ∈ ds, c.isAlpha = false) (h : cs.map Char.toLower = ds) :
    cs = ds := by
  rw [← h]
  refine (map_toLower_eq_self fun c hc => ?_).symm
  rw [← isAlpha_toLower]
  exact hds _ (h ▸ List.mem_map_of_mem hc)

end Spreadsheet
