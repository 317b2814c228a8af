import Mathlib.Data.List.ProdSigma
import Spreadsheet.Proofs.Cell.Spelling
import Spreadsheet.Proofs.Sheet.Csv

/-!
# Names and coordinates

Names and positions belong together: a position has one name, which in any case leads back to the
position, and a text that leads to a position is its name but for zeros in front of the row and a
line end. All other texts are no names, for one of two reasons: a text of letters and digits has a
column past the last one, and any other text has no position at all. So the names of the cells of a
grid are as many as its cells, and no two of them are the same.

## Main definitions

* `CellName.HasParts` — texts of letters and digits.
* `Sheet.gridNames` — the names of the positions of a grid.

## Main statements

* `CellName.outOfBounds_iff`, `CellName.invalidReference_iff` — texts that are no names.
* `Sheet.names_eq` — the names of the cells of a grid.
* `Sheet.names_match_positions` — names and positions, one to one.
-/

namespace Spreadsheet

/-! ## Letters and digits -/

namespace CellName

variable {s letters digits : List Char} {name : String} {row column : Nat}

/-- A text of letters in upper case and of digits behind them. A final line end is allowed. -/
structure HasParts (s letters digits : List Char) : Prop where
  eq_append : ∃ final, isAtEnd final ∧ s = letters ++ digits ++ final
  letters_ne_nil : letters ≠ []
  digits_ne_nil : digits ≠ []
  isLetter : ∀ c ∈ letters, Column.isLetter c
  isDigit : ∀ c ∈ digits, c.isDigit

theorem parts?_eq_some_iff :
    parts? Column.isLetter s = some (letters, digits) ↔ HasParts s letters digits := by
  constructor
  · intro h
    obtain ⟨final, hs, hend, hletters, hdigits, hletter, hdigit⟩ := parts?_eq_some h
    exact ⟨⟨final, hend, hs⟩, hletters, hdigits, hletter, hdigit⟩
  · rintro ⟨⟨final, hend, rfl⟩, hletters, hdigits, hletter, hdigit⟩
    exact parts?_append Column.isLetter_of_isDigit hletters hdigits hletter hdigit hend

theorem parts?_eq_none_iff :
    parts? Column.isLetter s = none ↔ ¬ ∃ letters digits, HasParts s letters digits := by
  simp [Option.eq_none_iff_forall_ne_some, ← parts?_eq_some_iff]

/-- The name of a position has the letters of the column and the digits of the row. -/
theorem hasParts_spell (row : Nat) (hcolumn : 1 ≤ column) :
    HasParts (spell row column).toList (Column.letters column) (Nat.toDigits 10 row) := by
  rw [← parts?_eq_some_iff]
  exact parts?_spell (Int.natCast_nonneg row) (Int.ofNat_le.2 hcolumn)

/-! ## Texts that are no names -/

/-- A text is out of bounds if it has the letters of no column. -/
theorem outOfBounds_iff : (∃ e, split name = .error e ∧ e.category = .cellOutOfBounds) ↔
    ∃ letters digits, HasParts (Text.upper name).toList letters digits ∧ 4 ≤ letters.length := by
  simp only [← parts?_eq_some_iff]
  constructor
  · rintro ⟨e, he, hcategory⟩
    cases splits_iff.2 he with
    | outOfRange hparts hlong => exact ⟨_, _, hparts, hlong⟩
    | invalid | tooMany => cases hcategory
  · rintro ⟨letters, digits, hparts, hlong⟩
    exact ⟨_, splits_iff.1 (.outOfRange hparts hlong), rfl⟩

/-- A text is no reference if it does not consist of letters and digits. -/
theorem invalidReference_iff : (∃ e, split name = .error e ∧ e.category = .invalidCellReference) ↔
    ¬ ∃ letters digits, HasParts (Text.upper name).toList letters digits := by
  rw [← parts?_eq_none_iff]
  constructor
  · rintro ⟨e, he, hcategory⟩
    cases splits_iff.2 he with
    | invalid hnone => exact hnone
    | outOfRange | tooMany => cases hcategory
  · intro hnone
    exact ⟨_, splits_iff.1 (.invalid hnone), rfl⟩

/-! ## Positions -/

/-- Whatever its case, the name of a position leads to the position, unless its row has too many
digits. -/
theorem split_of_upper_eq_spell (hpos : 1 ≤ column) (hlast : column ≤ Column.last)
    (hlimit : (Nat.toDigits 10 row).length ≤ Text.digitLimit)
    (hname : Text.upper name = spell row column) : split name = .ok (row, column) := by
  rw [← split_upper, hname]
  exact split_spell hpos hlast hlimit

/-- A text that leads to a position is the name of the position, but for zeros in front of the row
and a line end. -/
theorem exists_zeros_of_split_eq_ok (h : split name = .ok (row, column)) :
    ∃ letters digits zeros final, isAtEnd final ∧
      HasParts (letters ++ digits) letters digits ∧
      ofPosition row column = .ok (String.ofList (letters ++ digits)) ∧
      (Text.upper name).toList = letters ++ (List.replicate zeros '0' ++ digits) ++ final := by
  obtain ⟨⟨hpos, hlast⟩, zeros, final, hend, -, hname⟩ := split_eq_ok.1 h
  have hspell : (spell row column).toList = Column.letters column ++ Nat.toDigits 10 row := by
    simp [spell, toList_ofInt]
  refine ⟨Column.letters column, Nat.toDigits 10 row, zeros, final, hend, ?_, ?_, ?_⟩
  · exact hspell ▸ hasParts_spell row hpos
  · rw [ofPosition_eq (Int.ofNat_le.2 hpos) (Int.ofNat_le.2 hlast), ← hspell, String.ofList_toList]
  · rw [hname, spelling, String.toList_ofList]

end CellName

/-! ## The cells of a grid -/

namespace Sheet

open CellName (HasParts isAtEnd ofPosition spell split)

variable {s : Sheet} {rows columns : Int} {name : String}

/-- The names of cells in some rows and columns, row by row. -/
def gridNames (rows columns : Int) : List String :=
  (upTo rows ×ˢ upTo columns).map fun p => spell p.1 p.2

theorem mem_gridNames : name ∈ gridNames rows columns ↔ ∃ row column : Int,
    (1 ≤ row ∧ row ≤ rows) ∧ (1 ≤ column ∧ column ≤ columns) ∧ spell row column = name := by
  simp [gridNames, mem_upTo, and_assoc]

theorem length_gridNames (rows columns : Int) :
    (gridNames rows columns).length = rows.toNat * columns.toNat := by
  have hupTo : ∀ n, (upTo n).length = n.toNat := fun n => by simp [upTo]
  rw [gridNames, List.length_map, List.length_product, hupTo, hupTo]

/-- Different cells have different names. -/
theorem nodup_gridNames (hlast : columns ≤ Column.last) : (gridNames rows columns).Nodup := by
  refine List.Nodup.map_on ?_ ((nodup_upTo rows).product (nodup_upTo columns))
  rintro ⟨row, column⟩ hcell ⟨row', column'⟩ hcell' hname
  obtain ⟨hrow, hcolumn⟩ := List.pair_mem_product.1 hcell
  obtain ⟨hrow', hcolumn'⟩ := List.pair_mem_product.1 hcell'
  rw [mem_upTo] at hrow hcolumn hrow' hcolumn'
  obtain ⟨rfl, rfl⟩ :=
    CellName.spell_inj (by omega) (by omega) hcolumn.1 (by omega) hcolumn'.1 (by omega) hname
  rfl

/-- A grid lists the names of its cells. -/
theorem names_eq (hlast : s.columns ≤ Column.last) :
    s.names = .ok (gridNames s.rows s.columns) := by
  have htable : s.table .ok =
      .ok ((upTo s.rows).map fun row => (upTo s.columns).map (spell row)) :=
    mapM_eq_ok fun row _ => rowOf_eq hlast fun _ => rfl
  have hnames : gridNames s.rows s.columns =
      ((upTo s.rows).map fun row => (upTo s.columns).map (spell row)).flatten := by
    simp [gridNames, SProd.sprod, List.product, List.flatMap_def, Function.comp_def]
  rw [names, htable, hnames]
  rfl

/-- Names and positions belong together. A position has a name, which leads to it in any case. A
text that leads to a position is its name in some case, but for zeros in front of the row and a line
end. A text with four letters or more before its digits is out of bounds, and one that does not
consist of letters and digits is no reference. So a grid has as many different names as it has
cells. -/
theorem names_match_positions (name : String) (row column : Nat) (s : Sheet) :
    (1 ≤ column → column ≤ Column.last → ∃ spelled, ofPosition row column = .ok spelled ∧
      ((Nat.toDigits 10 row).length ≤ Text.digitLimit → Text.upper name = Text.upper spelled →
        split name = .ok (row, column))) ∧
    (split name = .ok (row, column) → ∃ letters digits zeros final, isAtEnd final ∧
      HasParts (letters ++ digits) letters digits ∧
      ofPosition row column = .ok (String.ofList (letters ++ digits)) ∧
      (Text.upper name).toList = letters ++ (List.replicate zeros '0' ++ digits) ++ final) ∧
    ((∃ letters digits, HasParts (Text.upper name).toList letters digits ∧ 4 ≤ letters.length) ↔
      ∃ e, split name = .error e ∧ e.category = .cellOutOfBounds) ∧
    ((¬ ∃ letters digits, HasParts (Text.upper name).toList letters digits) ↔
      ∃ e, split name = .error e ∧ e.category = .invalidCellReference) ∧
    (0 ≤ s.rows → 0 ≤ s.columns → s.columns ≤ Column.last → ∃ names, s.names = .ok names ∧
      names.Nodup ∧ (names.length : Int) = s.rows * s.columns ∧
      ∀ row column : Int, 1 ≤ row → row ≤ s.rows → 1 ≤ column → column ≤ s.columns →
        ∃ k ∈ names, ofPosition row column = .ok k) := by
  refine ⟨fun hpos hlast => ?_, CellName.exists_zeros_of_split_eq_ok,
    CellName.outOfBounds_iff.symm, CellName.invalidReference_iff.symm,
    fun hrows hcolumns hlast => ?_⟩
  · refine ⟨spell row column,
      CellName.ofPosition_eq (Int.ofNat_le.2 hpos) (Int.ofNat_le.2 hlast), fun hlimit hname => ?_⟩
    rw [CellName.upper_spell] at hname
    exact CellName.split_of_upper_eq_spell hpos hlast hlimit hname
  · refine ⟨_, names_eq hlast, nodup_gridNames hlast, ?_, fun row column hrow hrows hpos hle => ?_⟩
    · rw [length_gridNames, Int.natCast_mul, Int.toNat_of_nonneg hrows,
        Int.toNat_of_nonneg hcolumns]
    · exact ⟨_, mem_gridNames.2 ⟨row, column, ⟨hrow, hrows⟩, ⟨hpos, hle⟩, rfl⟩,
        CellName.ofPosition_eq hpos (by omega)⟩

/-- `zZ7` is the name of a position in mixed case, and `zz007` with a line end leads there too. A
grid of two rows and three columns has six names. -/
theorem names_match_positions_mixedCase :
    ofPosition 7 702 = .ok "ZZ7" ∧ split "zZ7" = .ok (7, 702) ∧ split "zz007\n" = .ok (7, 702) ∧
      (∃ letters digits zeros final, isAtEnd final ∧ HasParts (letters ++ digits) letters digits ∧
        "ZZ7" = String.ofList (letters ++ digits) ∧ (Text.upper "zz007\n").toList =
          letters ++ (List.replicate zeros '0' ++ digits) ++ final) ∧
      ∃ names, (ofTexts 2 3 .empty).names = .ok names ∧ names.Nodup ∧ names.length = 6 := by
  have hname : ofPosition 7 702 = .ok "ZZ7" := by decide +kernel
  have hsplit : split "zz007\n" = .ok (7, 702) := by decide +kernel
  obtain ⟨hcase, -, -, -, hnames⟩ := names_match_positions "zZ7" 7 702 (ofTexts 2 3 .empty)
  obtain ⟨-, hspelled, -⟩ := names_match_positions "zz007\n" 7 702 (ofTexts 2 3 .empty)
  obtain ⟨spelled, hspell, hcase⟩ := hcase (by decide) (by decide)
  obtain rfl := Except.ok.inj (hname.symm.trans hspell)
  obtain ⟨letters, digits, zeros, final, hend, hparts, hposition, hupper⟩ := hspelled hsplit
  obtain ⟨names, hlist, hnodup, hlength, -⟩ := hnames (by decide) (by decide) (by decide)
  exact ⟨hname, hcase (by decide +kernel) (by decide +kernel), hsplit,
    ⟨letters, digits, zeros, final, hend, hparts, Except.ok.inj (hname.symm.trans hposition),
      hupper⟩,
    names, hlist, hnodup, Int.ofNat.inj hlength⟩

end Sheet

end Spreadsheet
