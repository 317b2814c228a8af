import Spreadsheet.Proofs.Cell.Name
import Spreadsheet.Proofs.Decimal.Notation

/-!
# Names and positions

Every position has a name, which has letters and digits of its own: the letters tell the column and
the digits the row. So no two positions have one name, however large their rows are.

## Main definitions

* `CellName.spell` — the name of a position.

## Main statements

* `Column.ofLetters_letters` — the letters of a column count for the column.
* `CellName.ofPosition_eq` — the positions that have a name.
* `CellName.spell_inj` — no two positions have the same name.
-/

namespace Spreadsheet

/-! ## Letters -/

namespace Column

variable {width n : Nat} {rest : List Char}

/-- The greatest number that a number of letters can stand for. -/
def greatest : Nat → Nat
  | 0 => 0
  | width + 1 => 26 * (greatest width + 1)

theorem toNat_letter (n : Nat) :
    (Char.ofNat ('A'.toNat + n % 26)).toNat = 'A'.toNat + n % 26 :=
  toNat_ofNat (show 65 + n % 26 < _ by omega)

/-- Letters count for the number that they are written for, in front of any other letters. -/
theorem foldl_lettersOnto (h : n ≤ greatest width) :
    (lettersOnto width n rest).foldl (fun n c => 26 * n + (c.toNat - 'A'.toNat + 1)) 0 =
      rest.foldl (fun n c => 26 * n + (c.toNat - 'A'.toNat + 1)) n := by
  fun_induction lettersOnto width n rest with
  | case1 n rest =>
    obtain rfl : n = 0 := by simpa [greatest] using h
    rfl
  | case2 => rfl
  | case3 width n rest hn ih =>
    have hvalue : 26 * ((n - 1) / 26) + (n - 1) % 26 + 1 = n := by omega
    rw [greatest] at h
    rw [ih (by omega), List.foldl_cons, toNat_letter, Nat.add_sub_cancel_left, ← Nat.add_assoc,
      hvalue]

theorem ofLetters_letters (h : n ≤ last) : ofLetters (letters n) = n :=
  foldl_lettersOnto (show n ≤ greatest 3 from h)

theorem exists_lettersOnto (width n : Nat) (rest : List Char) :
    ∃ front, lettersOnto width n rest = front ++ rest ∧ ∀ c ∈ front, isLetter c := by
  fun_induction lettersOnto width n rest with
  | case1 | case2 => exact ⟨[], rfl, by simp⟩
  | case3 width n rest hn ih =>
    obtain ⟨front, hfront, hletters⟩ := ih
    refine ⟨front ++ [Char.ofNat ('A'.toNat + (n - 1) % 26)], ?_, fun c hc => ?_⟩
    · rw [hfront, List.append_assoc, List.singleton_append]
    · obtain hc | hc := List.mem_append.1 hc
      · exact hletters c hc
      · rw [List.mem_singleton.1 hc, isLetter_iff, toNat_letter]
        exact ⟨Nat.le_add_right _ _, show 65 + (n - 1) % 26 ≤ 90 by omega⟩

theorem isLetter_of_mem_letters {c : Char} (h : c ∈ letters n) : isLetter c := by
  obtain ⟨front, hfront, hletters⟩ := exists_lettersOnto 3 n []
  exact hletters c (by simpa [letters, hfront] using h)

theorem letters_ne_nil (h : n ≠ 0) : letters n ≠ [] := by
  obtain ⟨front, hfront, -⟩ :=
    exists_lettersOnto 2 ((n - 1) / 26) [Char.ofNat ('A'.toNat + (n - 1) % 26)]
  rw [letters, lettersOnto, if_neg h, hfront]
  simp

end Column

/-! ## Names -/

theorem toList_ofInt {n : Int} (h : 0 ≤ n) : (Text.ofInt n).toList = Nat.toDigits 10 n.toNat := by
  have hnat : n.natAbs = n.toNat := by omega
  rw [Text.ofInt, if_neg (by omega), hnat]
  simp

namespace CellName

variable {row row' column column' : Int}

/-- The name of a position: the letters of its column and the digits of its row. -/
def spell (row column : Int) : String :=
  String.ofList (Column.letters column.toNat) ++ Text.ofInt row

theorem ofPosition_eq (hpos : 1 ≤ column) (hlast : column ≤ Column.last) :
    ofPosition row column = .ok (spell row column) := by
  rw [ofPosition, ofLabels, Label.columnName, Column.name, if_pos ⟨hpos, hlast⟩]
  rfl

theorem parts?_spell (hrow : 0 ≤ row) (hcolumn : 1 ≤ column) :
    parts? Column.isLetter (spell row column).toList =
      some (Column.letters column.toNat, Nat.toDigits 10 row.toNat) := by
  have hname : (spell row column).toList =
      Column.letters column.toNat ++ Nat.toDigits 10 row.toNat ++ [] := by
    simp [spell, toList_ofInt hrow]
  rw [hname]
  exact parts?_append Column.isLetter_of_isDigit (Column.letters_ne_nil (by omega))
    Nat.toDigits_ne_nil
    (fun c => Column.isLetter_of_mem_letters) (fun c => Numeral.isDigit_of_mem_toDigits) rfl

/-- Letters and digits of a name tell its position. -/
theorem spell_inj (hrow : 0 ≤ row) (hrow' : 0 ≤ row') (hcolumn : 1 ≤ column)
    (hlast : column ≤ Column.last) (hcolumn' : 1 ≤ column') (hlast' : column' ≤ Column.last)
    (h : spell row column = spell row' column') : row = row' ∧ column = column' := by
  have hparts := parts?_spell hrow hcolumn
  rw [h, parts?_spell hrow' hcolumn'] at hparts
  obtain ⟨hletters, hdigits⟩ := Prod.mk.inj (Option.some.inj hparts)
  have hcolumns := congrArg Column.ofLetters hletters
  rw [Column.ofLetters_letters (by omega), Column.ofLetters_letters (by omega)] at hcolumns
  have hrows := congrArg Numeral.value hdigits
  rw [Numeral.value_toDigits, Numeral.value_toDigits] at hrows
  omega

end CellName

end Spreadsheet
