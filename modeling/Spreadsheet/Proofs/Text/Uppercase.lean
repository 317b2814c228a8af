import Mathlib.Algebra.Group.Nat.Defs
import Mathlib.Data.List.Basic
import Spreadsheet.Proofs.Text.Letter
import Spreadsheet.Text.Uppercase

/-!
# Upper case of upper case

Text in upper case is its own upper case. For the tables this means that no code point to which one
of their rows leads is mapped by another row. Sets of code points are compared as numbers whose
binary digits mark the members.

## Main statements

* `upper_upper` — the upper case of a text in upper case.
* `upperChar_of_ascii` — the upper case of a character of ASCII.
-/

namespace Spreadsheet.Text

namespace Uppercase

/-! ## Rows of the tables -/

/-- The distances from the first code point of a run at which it maps. -/
def Run.offsets (r : Run) : List Nat :=
  (List.range (r.last + 1 - r.first)).filter (· % r.stride == 0)

/-- The code points that the tables map. -/
def mapped : List Nat :=
  runs.flatMap (fun r => r.offsets.map (· + r.first)) ++ expansions.map Prod.fst

/-- The code points to which the tables lead. -/
def images : List Nat :=
  runs.flatMap (fun r => r.offsets.map (· + r.target)) ++ expansions.flatMap Prod.snd

theorem mem_of_map? {r : Run} (hr : r ∈ runs) {n m : Nat} (h : r.map? n = some m) :
    n ∈ mapped ∧ m ∈ images := by
  unfold Run.map? at h
  split at h
  next hn =>
    obtain ⟨hfirst, hlast, hstride⟩ := hn
    obtain rfl := Option.some.inj h
    have hoffset : n - r.first ∈ r.offsets := by
      refine List.mem_filter.2 ⟨List.mem_range.2 (by omega), ?_⟩
      simpa using hstride
    have hsource : n ∈ r.offsets.map (· + r.first) :=
      List.mem_map.2 ⟨_, hoffset, Nat.sub_add_cancel hfirst⟩
    have htarget : n - r.first + r.target ∈ r.offsets.map (· + r.target) :=
      List.mem_map_of_mem hoffset
    exact ⟨List.mem_append_left _ (List.mem_flatMap_of_mem hr hsource),
      List.mem_append_left _ (List.mem_flatMap_of_mem hr htarget)⟩
  next => cases h

/-! ## Sets as numbers -/

/-- The number whose binary digits mark the members of a list. -/
def mask (l : List Nat) : Nat :=
  l.foldr (fun n m => m ||| 2 ^ n) 0

theorem testBit_mask {l : List Nat} {n : Nat} (h : n ∈ l) : (mask l).testBit n = true := by
  induction l with
  | nil => cases h
  | cons a l ih =>
    rw [mask, List.foldr_cons, Nat.testBit_or, Nat.testBit_two_pow, Bool.or_eq_true,
      decide_eq_true_eq]
    obtain rfl | h := List.mem_cons.1 h
    · exact .inr rfl
    · exact .inl (ih h)

theorem mask_images_and_mapped : mask images &&& mask mapped = 0 := by
  decide +kernel

theorem notMem_mapped {n : Nat} (h : n ∈ images) : n ∉ mapped := by
  intro hmapped
  have hbit : (mask images &&& mask mapped).testBit n = true := by
    rw [Nat.testBit_and, testBit_mask h, testBit_mask hmapped]
    rfl
  rw [mask_images_and_mapped, Nat.zero_testBit] at hbit
  cases hbit

/-- The tables lead to characters, and to no lower-case letter of ASCII. -/
theorem valid_of_mem_images : ∀ n ∈ images, n.isValidChar ∧ (n < 0x61 ∨ 0x7f < n) := by
  decide +kernel

end Uppercase

/-! ## Characters -/

theorem upperChar_of_ascii {c : Char} (h : c.toNat < 0x80) : upperChar c = [c.toUpper] := by
  rw [upperChar, if_pos h, List.cons.injEq, ← Char.toNat_inj, toNat_toUpper]
  refine ⟨?_, rfl⟩
  split
  next hlower =>
    have hn : 0x61 ≤ c.toNat ∧ c.toNat ≤ 0x7a := hlower
    rw [if_pos hn, toNat_ofNat (by omega)]
  next hlower => exact (if_neg hlower).symm

theorem upperChar_toLower (c : Char) : upperChar c.toLower = upperChar c := by
  by_cases hc : c.isAlpha
  · have hascii : c.toNat < 0x80 ∧ c.toLower.toNat < 0x80 := by
      rw [toNat_toLower]
      rw [isAlpha_iff] at hc
      grind
    rw [upperChar_of_ascii hascii.1, upperChar_of_ascii hascii.2, toUpper_toLower]
  · rw [toLower_eq_self (by simpa using hc)]

theorem upperChar_eq_self {c : Char} (hlower : c.toNat < 0x61 ∨ 0x7f < c.toNat)
    (hruns : ∀ r ∈ Uppercase.runs, r.map? c.toNat = none)
    (hexpansions : ∀ e ∈ Uppercase.expansions, e.1 ≠ c.toNat) : upperChar c = [c] := by
  unfold upperChar
  split
  next hascii =>
    rw [if_neg]
    rintro ⟨ha, -⟩
    have : 0x61 ≤ c.toNat := ha
    omega
  next =>
    have hnone : Uppercase.runs.findSome? (fun r => r.map? c.toNat) = none :=
      List.findSome?_eq_none_iff.2 hruns
    have hlookup : Uppercase.expansions.lookup c.toNat = none :=
      List.lookup_eq_none_iff.2 fun e he => by simpa using (hexpansions e he).symm
    rw [hnone, hlookup]

theorem upperChar_of_mem_images {n : Nat} (h : n ∈ Uppercase.images) :
    upperChar (Char.ofNat n) = [Char.ofNat n] := by
  obtain ⟨hvalid, hlower⟩ := Uppercase.valid_of_mem_images n h
  have hn : (Char.ofNat n).toNat = n := by
    rw [Char.ofNat, dif_pos hvalid]
    rfl
  have hnot := Uppercase.notMem_mapped h
  refine upperChar_eq_self (by omega) (fun r hr => ?_) (fun e he hen => hnot ?_)
  · rw [hn, Option.eq_none_iff_forall_not_mem]
    exact fun m hm => hnot (Uppercase.mem_of_map? hr hm).1
  · rw [← hn, ← hen]
    exact List.mem_append_right _ (List.mem_map_of_mem he)

/-- The upper case of a character is a letter of ASCII that is made upper case, is told by the tables,
or is the character itself. -/
theorem mem_upperChar {c d : Char} (h : d ∈ upperChar c) :
    c.toNat < 0x80 ∧ d = c.toUpper ∨ (∃ n ∈ Uppercase.images, d = Char.ofNat n) ∨
      d = c ∧ upperChar c = [c] := by
  by_cases hascii : c.toNat < 0x80
  · rw [upperChar_of_ascii hascii, List.mem_singleton] at h
    exact .inl ⟨hascii, h⟩
  refine .inr ?_
  rw [upperChar, if_neg hascii] at h
  split at h
  next m hm =>
    obtain ⟨r, hr, hrm⟩ := List.exists_of_findSome?_eq_some hm
    exact .inl ⟨m, (Uppercase.mem_of_map? hr hrm).2, List.mem_singleton.1 h⟩
  next hnone =>
    split at h
    next ns hns =>
      obtain ⟨n, hn, rfl⟩ := List.mem_map.1 h
      obtain ⟨l₁, l₂, hl, -⟩ := List.lookup_eq_some_iff.1 hns
      have he : (c.toNat, ns) ∈ Uppercase.expansions := by simp [hl]
      exact .inl ⟨n, List.mem_append_right _ (List.mem_flatMap_of_mem he hn), rfl⟩
    next hlookup =>
      refine .inr ⟨List.mem_singleton.1 h, ?_⟩
      rw [upperChar, if_neg hascii, hnone, hlookup]

/-- A character of a text in upper case is left as it is. -/
theorem upperChar_of_mem {c d : Char} (h : d ∈ upperChar c) : upperChar d = [d] := by
  obtain ⟨hascii, rfl⟩ | ⟨n, hn, rfl⟩ | ⟨rfl, hself⟩ := mem_upperChar h
  · have hupper : c.toUpper.toNat < 0x80 := by
      rw [toNat_toUpper]
      split <;> omega
    rw [upperChar_of_ascii hupper, toUpper_toUpper]
  · exact upperChar_of_mem_images hn
  · exact hself

/-- The upper case of a text in upper case is that text. -/
@[simp] theorem upper_upper (s : String) : upper (upper s) = upper s := by
  have hself : ∀ l : List Char, (l.flatMap upperChar).flatMap upperChar = l.flatMap upperChar := by
    intro l
    rw [List.flatMap_assoc]
    refine List.flatMap_congr fun c _ => ?_
    have : (upperChar c).flatMap upperChar = (upperChar c).flatMap fun d => [d] :=
      List.flatMap_congr fun d hd => upperChar_of_mem hd
    simpa using this
  unfold upper
  rw [String.toList_ofList, hself]

end Spreadsheet.Text
