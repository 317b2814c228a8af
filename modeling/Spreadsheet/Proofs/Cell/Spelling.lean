import Mathlib.Data.List.Induction
import Spreadsheet.Proofs.Cell.Position

/-!
# Spellings of cell names

A position has one name of letters and digits, but it may be spelled in more ways: in any case, with
zeros in front of the row, and with a line end behind it. Besides, a row may be zero. In upper case
these are all spellings that there are.

## Main definitions

* `CellName.spelling` — a position spelled with zeros and a line end.
* `CellName.IsCanonical` — the names that positions from the first row on are given.

## Main statements

* `Numeral.exists_zeros` — digits, by the number that they are written for.
* `Column.letters_ofLetters` — letters, by the column that they count for.
* `CellName.split_eq_ok` — the spellings of a position.
* `CellName.isCanonical_spelling` — which of them is the name of the position.
-/

namespace Spreadsheet

variable {digits letters final : List Char} {name : String} {row column zeros : Nat}

/-! ## Digits -/

namespace Numeral

theorem toDigits_digitValue {c : Char} (h : c.isDigit) : Nat.toDigits 10 (digitValue c) = [c] :=
  of_isDigit (P := fun c => Nat.toDigits 10 (digitValue c) = [c]) h (by decide)

/-- Digits are those of the number that they are written for, behind some zeros. -/
theorem exists_zeros (hne : digits ≠ []) (hdigit : ∀ c ∈ digits, c.isDigit) :
    ∃ zeros, digits = List.replicate zeros '0' ++ Nat.toDigits 10 (value digits) := by
  induction digits using List.reverseRecOn with
  | nil => exact absurd rfl hne
  | append_singleton digits c ih =>
    have hc : c.isDigit := hdigit c (by simp)
    rw [value_append_singleton]
    obtain rfl | hdigits := eq_or_ne digits []
    · exact ⟨0, by simp [value, toDigits_digitValue hc]⟩
    obtain ⟨zeros, hzeros⟩ := ih hdigits fun d hd => hdigit d (List.mem_append_left _ hd)
    obtain hvalue | hvalue := Nat.eq_zero_or_pos (value digits)
    -- only zeros so far
    · refine ⟨zeros + 1, ?_⟩
      rw [hvalue, Nat.toDigits_zero] at hzeros
      rw [hvalue, Nat.mul_zero, Nat.zero_add, toDigits_digitValue hc, List.replicate_succ', ← hzeros]
    · refine ⟨zeros, ?_⟩
      rw [← Nat.toDigits_append_toDigits (by decide) hvalue (digitValue_lt hc), ← List.append_assoc,
        ← hzeros, toDigits_digitValue hc]

end Numeral

/-! ## Letters -/

namespace Column

theorem ofLetters_append_singleton (letters : List Char) (c : Char) :
    ofLetters (letters ++ [c]) = 26 * ofLetters letters + (c.toNat - 'A'.toNat + 1) := by
  simp [ofLetters]

/-- Letters are those of the number that they stand for. -/
theorem lettersOnto_ofLetters {width : Nat} (hletter : ∀ c ∈ letters, isLetter c)
    (hwidth : letters.length ≤ width) (rest : List Char) :
    lettersOnto width (ofLetters letters) rest = letters ++ rest := by
  induction letters using List.reverseRecOn generalizing width rest with
  | nil => cases width <;> rfl
  | append_singleton letters c ih =>
    have hc : 'A'.toNat ≤ c.toNat ∧ c.toNat ≤ 'A'.toNat + 25 := isLetter_iff.1 (hletter c (by simp))
    rw [List.length_append, List.length_singleton] at hwidth
    obtain ⟨width, rfl⟩ := Nat.exists_eq_add_of_le' (Nat.le_trans (Nat.le_add_left 1 _) hwidth)
    -- letters are written from the last one on
    have hlast : Char.ofNat ('A'.toNat + (c.toNat - 'A'.toNat)) = c := by
      rw [Nat.add_sub_cancel' hc.1, Char.ofNat_toNat]
    rw [ofLetters_append_singleton, lettersOnto, if_neg (by omega),
      show (26 * ofLetters letters + (c.toNat - 'A'.toNat + 1) - 1) / 26 = ofLetters letters by omega,
      show (26 * ofLetters letters + (c.toNat - 'A'.toNat + 1) - 1) % 26 = c.toNat - 'A'.toNat by
        omega,
      hlast, ih (fun d hd => hletter d (List.mem_append_left _ hd)) (by omega), List.append_assoc,
      List.singleton_append]

theorem letters_ofLetters (hletter : ∀ c ∈ letters, isLetter c) (hlen : letters.length ≤ 3) :
    Column.letters (ofLetters letters) = letters := by
  rw [Column.letters, lettersOnto_ofLetters hletter hlen, List.append_nil]

theorem ofLetters_pos (hne : letters ≠ []) : 1 ≤ ofLetters letters := by
  rw [← List.dropLast_append_getLast hne, ofLetters_append_singleton]
  omega

theorem ofLetters_le (hletter : ∀ c ∈ letters, isLetter c) :
    ofLetters letters ≤ greatest letters.length := by
  induction letters using List.reverseRecOn with
  | nil => exact Nat.le_refl 0
  | append_singleton letters c ih =>
    have hc : 'A'.toNat ≤ c.toNat ∧ c.toNat ≤ 'A'.toNat + 25 := isLetter_iff.1 (hletter c (by simp))
    have hle := ih fun d hd => hletter d (List.mem_append_left _ hd)
    rw [ofLetters_append_singleton, List.length_append, List.length_singleton, greatest]
    omega

theorem ofLetters_le_last (hletter : ∀ c ∈ letters, isLetter c) (hlen : letters.length ≤ 3) :
    ofLetters letters ≤ last := by
  have hle := ofLetters_le hletter
  have hgreatest : ∀ n ≤ 3, greatest n ≤ last := by decide
  exact Nat.le_trans hle (hgreatest _ hlen)

theorem length_letters_le (n : Nat) : (Column.letters n).length ≤ 3 := by
  have hle : ∀ (width n : Nat) (rest : List Char),
      (lettersOnto width n rest).length ≤ width + rest.length := by
    intro width n rest
    fun_induction lettersOnto width n rest with
    | case1 | case2 => omega
    | case3 width n rest hn ih =>
      rw [List.length_cons] at ih
      omega
  exact hle 3 n []

end Column

/-! ## Names -/

namespace CellName

/-- A position in upper case with zeros in front of the row, followed by `final`. -/
def spelling (row column zeros : Nat) (final : List Char) : String :=
  String.ofList
    (Column.letters column ++ (List.replicate zeros '0' ++ Nat.toDigits 10 row) ++ final)

/-- Whether a name is the one that its position is given, in the first row or below. -/
def IsCanonical (name : String) : Prop :=
  ∃ row column : Nat, split name = .ok (row, column) ∧ 1 ≤ row ∧ ofPosition row column = .ok name

theorem spelling_zero (row column : Nat) : spelling row column 0 [] = spell row column := by
  rw [← String.toList_inj]
  simp [spelling, spell, toList_ofInt]

theorem isDigit_of_mem_spelling {c : Char}
    (h : c ∈ List.replicate zeros '0' ++ Nat.toDigits 10 row) : c.isDigit := by
  obtain h | h := List.mem_append.1 h
  · rw [(List.mem_replicate.1 h).2]
    rfl
  · exact Numeral.isDigit_of_mem_toDigits h

theorem mem_spelling {c : Char} (hend : isAtEnd final)
    (h : c ∈ (spelling row column zeros final).toList) :
    Column.isLetter c ∨ c.isDigit ∨ c = '\n' := by
  rw [spelling, String.toList_ofList] at h
  obtain h | h := List.mem_append.1 h
  · exact (List.mem_append.1 h).imp Column.isLetter_of_mem_letters
      fun h => .inl (isDigit_of_mem_spelling h)
  · simp only [isAtEnd, Bool.or_eq_true, decide_eq_true_eq] at hend
    obtain rfl | rfl := hend
    · cases h
    · exact .inr (.inr (List.mem_singleton.1 h))

/-- Spellings are in upper case. -/
theorem upper_spelling (hend : isAtEnd final) :
    Text.upper (spelling row column zeros final) = spelling row column zeros final := by
  refine Text.upper_eq_self fun c hc => ?_
  obtain hletter | hdigit | rfl := mem_spelling hend hc
  · have hcode := Column.isLetter_iff.1 hletter
    omega
  · have hcode := isDigit_iff.1 hdigit
    omega
  · decide

theorem upper_spell (row column : Nat) : Text.upper (spell row column) = spell row column :=
  spelling_zero row column ▸ upper_spelling rfl

theorem spelling_ne_empty : spelling row column zeros final ≠ "" := by
  simp [spelling, Nat.toDigits_ne_nil]

theorem parts?_spelling (hcolumn : 1 ≤ column) (hend : isAtEnd final) :
    parts? Column.isLetter (spelling row column zeros final).toList =
      some (Column.letters column, List.replicate zeros '0' ++ Nat.toDigits 10 row) := by
  rw [spelling, String.toList_ofList]
  exact parts?_append Column.isLetter_of_isDigit (Column.letters_ne_nil (by omega))
    (by simp [Nat.toDigits_ne_nil]) (fun c => Column.isLetter_of_mem_letters)
    (fun c => isDigit_of_mem_spelling) hend

/-- The names of a position are its spellings in any case, with as many zeros as a row may have. -/
theorem split_eq_ok : split name = .ok (row, column) ↔
    (1 ≤ column ∧ column ≤ Column.last) ∧ ∃ zeros final, isAtEnd final ∧
      zeros + (Nat.toDigits 10 row).length ≤ Text.digitLimit ∧
      Text.upper name = spelling row column zeros final := by
  constructor
  · intro h
    cases splits_iff.2 h with
    | position hparts hlen hlimit =>
      obtain ⟨final, hname, hend, hletters, hdigits, hletter, hdigit⟩ := parts?_eq_some hparts
      obtain ⟨zeros, hzeros⟩ := Numeral.exists_zeros hdigits hdigit
      refine ⟨⟨Column.ofLetters_pos hletters, Column.ofLetters_le_last hletter hlen⟩,
        zeros, final, hend, ?_, ?_⟩
      · have hlength := congrArg List.length hzeros
        rw [List.length_append, List.length_replicate] at hlength
        omega
      · rw [← String.toList_inj, hname, spelling, String.toList_ofList, ← hzeros,
          Column.letters_ofLetters hletter hlen]
  · rintro ⟨⟨hpos, hlast⟩, zeros, final, hend, hlimit, hname⟩
    have hparts : parts? Column.isLetter (Text.upper name).toList =
        some (Column.letters column, List.replicate zeros '0' ++ Nat.toDigits 10 row) := by
      rw [hname]
      exact parts?_spelling hpos hend
    have hposition := Splits.position hparts (Column.length_letters_le column)
      (by simpa using hlimit)
    rw [Numeral.value_zeros, Numeral.value_toDigits, Column.ofLetters_letters hlast] at hposition
    exact splits_iff.1 hposition

/-- The name of a position tells the position, unless its row has too many digits. -/
theorem split_spell (hpos : 1 ≤ column) (hlast : column ≤ Column.last)
    (hlimit : (Nat.toDigits 10 row).length ≤ Text.digitLimit) :
    split (spell row column) = .ok (row, column) :=
  split_eq_ok.2 ⟨⟨hpos, hlast⟩, 0, [], rfl, by rwa [Nat.zero_add],
    (upper_spell row column).trans (spelling_zero row column).symm⟩

/-! ## Canonical names -/

theorem isCanonical_iff (h : split name = .ok (row, column)) :
    IsCanonical name ↔ 1 ≤ row ∧ name = spell row column := by
  obtain ⟨⟨hpos, hlast⟩, -⟩ := split_eq_ok.1 h
  have hname : ofPosition row column = .ok (spell row column) :=
    ofPosition_eq (by omega) (by omega)
  constructor
  · rintro ⟨row', column', h', hrow, hname'⟩
    obtain ⟨rfl, rfl⟩ := Prod.mk.inj (Except.ok.inj (h.symm.trans h'))
    exact ⟨hrow, Except.ok.inj (hname'.symm.trans hname)⟩
  · rintro ⟨hrow, rfl⟩
    exact ⟨row, column, h, hrow, hname⟩

/-- A spelling is the name of its position if it has neither zeros nor a line end. -/
theorem isCanonical_spelling (h : split (spelling row column zeros final) = .ok (row, column)) :
    IsCanonical (spelling row column zeros final) ↔ 1 ≤ row ∧ zeros = 0 ∧ final = [] := by
  rw [isCanonical_iff h]
  refine and_congr_right fun _ => ⟨fun hname => ?_, ?_⟩
  · have hlength := congrArg (fun s : String => s.toList.length) hname
    simp only [spelling, spell, String.toList_ofList, String.toList_append, List.length_append,
      List.length_replicate, toList_ofInt (Int.natCast_nonneg row), Int.toNat_natCast] at hlength
    exact ⟨by omega, List.eq_nil_of_length_eq_zero (by omega)⟩
  · rintro ⟨rfl, rfl⟩
    exact spelling_zero row column

/-- A position has one canonical name. -/
theorem IsCanonical.eq_of_split {name' : String} (h : IsCanonical name) (h' : IsCanonical name')
    (hsplit : split name = split name') : name = name' := by
  obtain ⟨row, column, hname, -, hposition⟩ := h
  obtain ⟨row', column', hname', -, hposition'⟩ := h'
  obtain ⟨rfl, rfl⟩ := Prod.mk.inj (Except.ok.inj (hname.symm.trans (hsplit.trans hname')))
  exact Except.ok.inj (hposition.symm.trans hposition')

end CellName

end Spreadsheet
