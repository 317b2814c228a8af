import Spreadsheet.Cell.Name
import Spreadsheet.Proofs.Decimal.Numeral
import Spreadsheet.Proofs.Text.Uppercase

/-!
# Letters and digits of cell names

## Main statements

* `CellName.parts?_eq_some`, `CellName.parts?_append` — texts of letters and digits.
* `CellName.upper_eq_self_of_aliasTarget?` — targets of references have names in upper case.
* `CellName.splits_iff` — what names are split into.
* `CellName.length_letters_le` — cells have up to three letters.
* `CellName.split_upper` — the case of a name does not matter.
-/

namespace Spreadsheet

variable {s letters digits final : List Char} {text name : String}

theorem flatMap_upperChar (h : ∀ c ∈ s, c.toNat < 0x80) :
    s.flatMap Text.upperChar = s.map Char.toUpper := by
  rw [List.map_eq_flatMap]
  exact List.flatMap_congr fun c hc => Text.upperChar_of_ascii (h c hc)

/-- A text without lower-case letters and other scripts is its own upper case. -/
theorem Text.upper_eq_self (h : ∀ c ∈ text.toList, c.toNat < 0x61) : Text.upper text = text := by
  have hupper : ∀ c ∈ text.toList, c.toUpper = id c := by
    intro c hc
    have hcode := h c hc
    rw [← Char.toNat_inj, toNat_toUpper, if_neg (by omega)]
    rfl
  have hascii : ∀ c ∈ text.toList, c.toNat < 0x80 := fun c hc => by
    have hcode := h c hc
    omega
  rw [Text.upper, flatMap_upperChar hascii, List.map_congr_left hupper, List.map_id,
    String.ofList_toList]

theorem Column.isLetter_iff {c : Char} :
    Column.isLetter c ↔ 0x41 ≤ c.toNat ∧ c.toNat ≤ 0x5a := by
  rw [Column.isLetter, Bool.and_eq_true, decide_eq_true_eq, decide_eq_true_eq]
  rfl

theorem Column.isLetter_of_isDigit (c : Char) (h : c.isDigit) : Column.isLetter c = false := by
  rw [isDigit_iff] at h
  rw [Bool.eq_false_iff, ne_eq, Column.isLetter_iff]
  omega

namespace CellName

variable {p : Char → Bool}

theorem parts?_eq_some (h : parts? p s = some (letters, digits)) :
    ∃ final, s = letters ++ digits ++ final ∧ isAtEnd final ∧ letters ≠ [] ∧ digits ≠ [] ∧
      (∀ c ∈ letters, p c) ∧ ∀ c ∈ digits, c.isDigit := by
  unfold parts? at h
  dsimp only at h
  split at h
  next => cases h
  next hparts =>
    obtain ⟨rfl, rfl⟩ := Prod.mk.inj (Option.some.inj h)
    simp only [Bool.or_eq_true, List.isEmpty_iff, Bool.not_eq_true', not_or,
      Bool.not_eq_false] at hparts
    obtain ⟨⟨hletters, hdigits⟩, hend⟩ := hparts
    refine ⟨_, ?_, hend, hletters, hdigits, List.all_eq_true.1 List.all_takeWhile,
      List.all_eq_true.1 List.all_takeWhile⟩
    rw [List.append_assoc, List.takeWhile_append_dropWhile, List.takeWhile_append_dropWhile]

theorem parts?_append (hp : ∀ c : Char, c.isDigit → p c = false) (hletters : letters ≠ [])
    (hdigits : digits ≠ []) (hisLetter : ∀ c ∈ letters, p c) (hisDigit : ∀ c ∈ digits, c.isDigit)
    (hend : isAtEnd final) : parts? p (letters ++ digits ++ final) = some (letters, digits) := by
  have hstop : ∀ c ∈ (digits ++ final).head?, p c = false := by
    obtain ⟨d, digits, rfl⟩ := List.exists_cons_of_ne_nil hdigits
    intro c hc
    obtain rfl : c = d := by simpa using hc.symm
    exact hp c (hisDigit c List.mem_cons_self)
  have hfinal : ∀ c ∈ final.head?, c.isDigit = false := by
    simp only [isAtEnd, Bool.or_eq_true, decide_eq_true_eq] at hend
    obtain rfl | rfl := hend <;> simp
  unfold parts?
  dsimp only
  rw [List.append_assoc, takeWhile_append_of_stop hisLetter hstop,
    dropWhile_append_of_stop hisLetter hstop, takeWhile_append_of_stop hisDigit hfinal,
    dropWhile_append_of_stop hisDigit hfinal]
  simp [hletters, hdigits, hend]

/-! ## Targets -/

@[simp] theorem isAnyLetter_eq_isAlpha (c : Char) : isAnyLetter c = c.isAlpha := by
  rw [Bool.eq_iff_iff, isAlpha_iff]
  simp only [isAnyLetter, Bool.or_eq_true, Bool.and_eq_true, decide_eq_true_eq]
  rfl

/-- A text that refers to a cell is an equals sign and the name of the cell in any case. -/
theorem aliasTarget?_eq_some (h : aliasTarget? text = some name) :
    ∃ letters digits final, text.toList = '=' :: (letters ++ digits ++ final) ∧ isAtEnd final ∧
      letters ≠ [] ∧ digits ≠ [] ∧ (∀ c ∈ letters, c.isAlpha) ∧ (∀ c ∈ digits, c.isDigit) ∧
      name = String.ofList ((letters ++ digits).map Char.toUpper) := by
  unfold aliasTarget? at h
  split at h
  next s hs =>
    obtain ⟨⟨letters, digits⟩, hparts, rfl⟩ := Option.map_eq_some_iff.1 h
    obtain ⟨final, rfl, hend, hletters, hdigits, halpha, hdigit⟩ := parts?_eq_some hparts
    simp only [isAnyLetter_eq_isAlpha] at halpha
    refine ⟨letters, digits, final, hs, hend, hletters, hdigits, halpha, hdigit, ?_⟩
    have hascii : ∀ c ∈ letters ++ digits, c.toNat < 0x80 := by
      intro c hc
      obtain hc | hc := List.mem_append.1 hc
      · have := isAlpha_iff.1 (halpha c hc)
        omega
      · have := isDigit_iff.1 (hdigit c hc)
        omega
    show Text.upper (String.ofList (letters ++ digits)) = _
    rw [Text.upper, String.toList_ofList, flatMap_upperChar hascii]
  next => cases h

theorem upper_eq_self_of_aliasTarget? (h : aliasTarget? text = some name) :
    Text.upper name = name := by
  unfold aliasTarget? at h
  split at h
  next s _ =>
    obtain ⟨parts, -, rfl⟩ := Option.map_eq_some_iff.1 h
    exact Text.upper_upper _
  next => cases h

/-- The letters and the digits of a name in upper case. -/
theorem parts?_map_toUpper (hletters : letters ≠ []) (hdigits : digits ≠ [])
    (halpha : ∀ c ∈ letters, c.isAlpha) (hdigit : ∀ c ∈ digits, c.isDigit) :
    parts? Column.isLetter ((letters ++ digits).map Char.toUpper) =
      some (letters.map Char.toUpper, digits) := by
  have hupper : ∀ d ∈ letters.map Char.toUpper, Column.isLetter d := by
    intro d hd
    obtain ⟨c, hc, rfl⟩ := List.mem_map.1 hd
    have hc := isAlpha_iff.1 (halpha c hc)
    rw [Column.isLetter_iff, toNat_toUpper]
    grind
  rw [List.map_append, map_toUpper_eq_self hdigit,
    ← List.append_nil (letters.map Char.toUpper ++ digits)]
  exact parts?_append Column.isLetter_of_isDigit (by simpa using hletters) hdigits hupper hdigit rfl

/-! ## Names and their positions -/

/-- What a name is split into: it does not consist of letters and digits, or has too many letters, or
too many digits, or it has a position. -/
inductive Splits (name : String) : Except Error (Nat × Nat) → Prop
  | invalid (h : parts? Column.isLetter (Text.upper name).toList = none) :
      Splits name (.error (.invalidReference name))
  | outOfRange {letters digits : List Char}
      (h : parts? Column.isLetter (Text.upper name).toList = some (letters, digits))
      (hletters : 3 < letters.length) :
      Splits name (.error (.columnOutOfRange (String.ofList letters) name))
  | tooMany {letters digits : List Char}
      (h : parts? Column.isLetter (Text.upper name).toList = some (letters, digits))
      (hletters : letters.length ≤ 3) (hdigits : Text.digitLimit < digits.length) :
      Splits name (.error (.tooManyDigits digits.length))
  | position {letters digits : List Char}
      (h : parts? Column.isLetter (Text.upper name).toList = some (letters, digits))
      (hletters : letters.length ≤ 3) (hdigits : digits.length ≤ Text.digitLimit) :
      Splits name (.ok (Numeral.value digits, Column.ofLetters letters))

theorem splits_split (name : String) : Splits name (split name) := by
  unfold split
  split
  next hnone => exact .invalid hnone
  next letters digits hparts =>
    split
    next hletters => exact .outOfRange hparts hletters
    next hletters =>
      split
      next hdigits => exact .tooMany hparts (Nat.not_lt.1 hletters) hdigits
      next hdigits => exact .position hparts (Nat.not_lt.1 hletters) (Nat.not_lt.1 hdigits)

theorem splits_iff {r : Except Error (Nat × Nat)} : Splits name r ↔ split name = r := by
  constructor
  · intro h
    unfold split
    cases h with
    | invalid h => rw [h]
    | outOfRange h hletters =>
      rw [h]
      exact if_pos hletters
    | tooMany h hletters hdigits =>
      rw [h]
      exact (if_neg (Nat.not_lt.2 hletters)).trans (if_pos hdigits)
    | position h hletters hdigits =>
      rw [h]
      exact (if_neg (Nat.not_lt.2 hletters)).trans (if_neg (Nat.not_lt.2 hdigits))
  · rintro rfl
    exact splits_split name

/-- The name of a cell has up to three letters. -/
theorem length_letters_le {position : Nat × Nat} (hletters : letters ≠ []) (hdigits : digits ≠ [])
    (halpha : ∀ c ∈ letters, c.isAlpha) (hdigit : ∀ c ∈ digits, c.isDigit)
    (hname : Text.upper name = String.ofList ((letters ++ digits).map Char.toUpper))
    (h : split name = .ok position) : letters.length ≤ 3 := by
  have hparts := parts?_map_toUpper hletters hdigits halpha hdigit
  cases splits_iff.2 h with
  | position hname' hlen =>
    rw [hname, String.toList_ofList, hparts] at hname'
    obtain ⟨rfl, rfl⟩ := Prod.mk.inj (Option.some.inj hname')
    simpa using hlen

/-- A cell has one position, however its name is spelled. -/
theorem split_upper {position : Nat × Nat} :
    split (Text.upper name) = .ok position ↔ split name = .ok position := by
  constructor
  · intro h
    cases splits_iff.2 h with
    | position hparts hletters hdigits =>
      rw [Text.upper_upper] at hparts
      exact splits_iff.1 (.position hparts hletters hdigits)
  · intro h
    cases splits_iff.2 h with
    | position hparts hletters hdigits =>
      rw [← Text.upper_upper] at hparts
      exact splits_iff.1 (.position hparts hletters hdigits)

end CellName

end Spreadsheet
