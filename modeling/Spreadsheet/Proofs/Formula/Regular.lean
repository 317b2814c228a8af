import Mathlib.Data.List.DropRight
import Spreadsheet.Proofs.Formula.Tiling

/-!
# Formulas without stray characters

Which formulas have no stray characters can be told from their runs of letters and of digits, without
cutting them into tokens: a run of letters is made of reserved words unless digits follow it, and points
stand within numbers.

## Main definitions

* `IsRun` — longest parts of a text whose characters are of one kind.
* `IsWords` — reserved words one after the other.
* `IsRegular` — the conditions on the runs of a text.
* `IsCovered` — texts of which the rules leave nothing out.

## Main statements

* `IsCovered.of_append` — a token ends wherever two characters cannot stand in one token.
* `IsCovered.of_letters` — letters are reserved words, or the end of them begins a cell.
* `IsCovered.isRegular`, `Tiles.strays_eq_nil` — the conditions are necessary and sufficient.
* `not_invalid_iff_isRegular` — invalid characters are reported if the conditions fail.
-/

namespace Spreadsheet

open Numeral (isPlain)
open Machine (isPlain_of_mem_chars)

variable {s cs ds before letters run after rest : List Char} {p : Char → Bool} {a b c : Char}
  {position : Nat} {ts : List Token} {strays : List Char}

/-! ## Runs -/

/-- Whether a part of a text is a longest one of characters of a kind: those next to it are not of
that kind. -/
structure IsRun (p : Char → Bool) (before run after : List Char) : Prop where
  ne_nil : run ≠ []
  all : ∀ c ∈ run, p c
  last_before : ∀ c ∈ before.getLast?, p c = false
  head_after : ∀ c ∈ after.head?, p c = false

/-- What is of the kind at the head of a text is within the longest such head. -/
theorem exists_append_of_append_eq (hcs : ∀ c ∈ cs, p c) (hafter : ∀ c ∈ after.head?, p c = false)
    (h : run ++ after = cs ++ rest) : ∃ ds, run = cs ++ ds ∧ rest = ds ++ after := by
  rcases List.append_eq_append_iff.1 h with ⟨k, rfl, rfl⟩ | ⟨k, rfl, rfl⟩
  · cases k with
    | nil => exact ⟨[], by simp, by simp⟩
    | cons a k =>
      have ha := hafter a rfl
      rw [hcs a (by simp)] at ha
      cases ha
  · exact ⟨k, rfl, rfl⟩

/-- There is only one longest head of characters of a kind. -/
theorem eq_of_append_eq (hrun : ∀ c ∈ run, p c) (hafter : ∀ c ∈ after.head?, p c = false)
    (hcs : ∀ c ∈ cs, p c) (hrest : ∀ c ∈ rest.head?, p c = false)
    (h : run ++ after = cs ++ rest) : run = cs ∧ after = rest := by
  have htake := congrArg (List.takeWhile p) h
  rw [takeWhile_append_of_stop hrun hafter, takeWhile_append_of_stop hcs hrest] at htake
  subst htake
  exact ⟨rfl, List.append_cancel_left h⟩

theorem exists_head_run (p : Char → Bool) (s : List Char) :
    ∃ run after, s = run ++ after ∧ (∀ c ∈ run, p c) ∧ ∀ c ∈ after.head?, p c = false := by
  refine ⟨s.takeWhile p, s.dropWhile p, List.takeWhile_append_dropWhile.symm,
    List.all_eq_true.1 List.all_takeWhile, ?_⟩
  intro c hc
  have hstop := List.head?_dropWhile_not p s
  rwa [Option.mem_def.1 hc] at hstop

theorem IsRun.append_left (h : IsRun p before run after)
    (hcs : before = [] → ∀ c ∈ cs.getLast?, p c = false) : IsRun p (cs ++ before) run after where
  ne_nil := h.ne_nil
  all := h.all
  last_before := by
    rcases eq_or_ne before [] with rfl | hbefore
    · simpa using hcs rfl
    · rw [List.getLast?_append_of_ne_nil cs hbefore]
      exact h.last_before
  head_after := h.head_after

/-- Reserved words one after the other, in any case. -/
inductive IsWords : List Char → Prop
  | nil : IsWords []
  | append {w : String} {cs ds : List Char} (hw : w ∈ reservedWords)
    (h : cs.map Char.toLower = w.toList) (hds : IsWords ds) : IsWords (cs ++ ds)

theorem IsWords.exists_word (h : IsWords s) (hs : s ≠ []) :
    ∃ cs ds, s = cs ++ ds ∧ Rule.Finds .word cs := by
  cases h with
  | nil => exact absurd rfl hs
  | append hw h => exact ⟨_, _, rfl, .word hw h⟩

theorem IsWords.of_append (h : IsWords (cs ++ ds)) (hcs : Rule.Finds .word cs) : IsWords ds := by
  generalize hs : cs ++ ds = s at h
  cases h with
  | nil => exact absurd (List.append_eq_nil_iff.1 hs).1 hcs.ne_nil
  | append hw h hds =>
    have hlength := hcs.length_of_word.trans (Rule.Finds.word hw h).length_of_word.symm
    obtain ⟨-, rfl⟩ := List.append_inj hs hlength
    exact hds

/-- The conditions on the runs of a text. Characters are letters, digits, points or symbols; a run of
letters is made of reserved words unless a digit follows it; a point has digits on both sides, is the
only one among the digits and points around it, and these do not follow a run of letters unless it is
made of reserved words. -/
structure IsRegular (s : List Char) : Prop where
  allowed : ∀ c ∈ s, c.isAlpha ∨ c.isDigit ∨ c = '.' ∨ c ∈ symbolChars
  letters : ∀ before run after, s = before ++ run ++ after → IsRun Char.isAlpha before run after →
    (∀ c ∈ after.head?, c.isDigit = false) → IsWords run
  digits_around : ∀ before after, s = before ++ '.' :: after →
    (∃ c ∈ before.getLast?, c.isDigit) ∧ ∃ c ∈ after.head?, c.isDigit
  single_point : ∀ before run after, s = before ++ run ++ after → IsRun isPlain before run after →
    '.' ∈ run → run.count '.' = 1
  unattached : ∀ before letters run after, s = before ++ letters ++ run ++ after →
    IsRun Char.isAlpha before letters (run ++ after) → IsRun isPlain (before ++ letters) run after →
    '.' ∈ run → IsWords letters

/-! ## Characters of tokens -/

theorem isPlain_of_isDigit (h : c.isDigit) : isPlain c := by
  simp [isPlain, h]

theorem isPlain_of_isAlpha (h : c.isAlpha) : isPlain c = false := by
  have hdigit : c.isDigit = false := by
    rw [Bool.eq_false_iff]
    intro hdigit
    rw [isAlpha_of_isDigit hdigit] at h
    cases h
  have hpoint : c ≠ '.' := by
    rintro rfl
    cases h
  simp [isPlain, hdigit, hpoint]

theorem isAlpha_of_isPlain (h : isPlain c) : c.isAlpha = false := by
  rw [Bool.eq_false_iff]
  intro halpha
  rw [isPlain_of_isAlpha halpha] at h
  cases h

theorem isPlain_append_point (hcs : ∀ c ∈ cs, isPlain c) (hrun : ∀ c ∈ run, isPlain c) :
    ∀ c ∈ cs ++ '.' :: run, isPlain c := by
  intro c hc
  rcases List.mem_append.1 hc with hc | hc
  · exact hcs c hc
  rcases List.mem_cons.1 hc with rfl | hc
  · rfl
  · exact hrun c hc

theorem of_mem_symbolChars (h : c ∈ symbolChars) : c.isAlpha = false ∧ isPlain c = false := by
  have hall : symbolChars.all fun c => !c.isAlpha && !isPlain c := by decide
  simpa using List.all_eq_true.1 hall c h

theorem mem_symbolChars_of_comparison (h : cs ∈ comparisons) (hc : c ∈ cs) : c ∈ symbolChars := by
  have hall : ∀ cs ∈ comparisons, ∀ c ∈ cs, c ∈ symbolChars := by
    simp [comparisons, symbolChars]
  exact hall cs h c hc

namespace Rule

theorem Finds.isAlpha_of_word (h : Finds .word cs) : ∀ c ∈ cs, c.isAlpha := by
  cases h with
  | word hw h =>
    intro c hc
    rw [← isAlpha_toLower]
    exact isAlpha_of_mem_reserved hw _ (h ▸ List.mem_map_of_mem hc)

/-- The kind of character that a text found by a rule begins with. -/
def Opens : Rule → Char → Prop
  | word, c | cell, c => c.isAlpha
  | comparison, c | symbol, c => c ∈ symbolChars
  | number, c => c.isDigit

/-- The kind of character that a text found by a rule ends with. -/
def Closes : Rule → Char → Prop
  | word, c => c.isAlpha
  | comparison, c | symbol, c => c ∈ symbolChars
  | cell, c | number, c => c.isDigit

theorem Finds.opens {r : Rule} (h : r.Finds (c :: cs)) : r.Opens c := by
  generalize hs : c :: cs = s at h
  have hc : c ∈ s := hs ▸ List.mem_cons_self
  cases h with
  | word hw h => exact isAlpha_of_word (.word hw h) c hc
  | comparison h => exact mem_symbolChars_of_comparison h hc
  | symbol h =>
    obtain rfl := List.mem_singleton.1 hc
    exact h
  | @cell letters digits hletters _ halpha _ =>
    obtain ⟨d, letters, rfl⟩ := List.exists_cons_of_ne_nil hletters
    obtain ⟨rfl, -⟩ := List.cons.inj hs
    exact halpha c List.mem_cons_self
  | number n =>
    obtain ⟨d, whole, hwhole⟩ := List.exists_cons_of_ne_nil n.whole_ne_nil
    rw [NumberWord.chars, hwhole] at hs
    obtain ⟨rfl, -⟩ := List.cons.inj hs
    exact n.isDigit_whole c (hwhole ▸ List.mem_cons_self)

theorem Finds.opens_of_append {r : Rule} (h : r.Finds cs) (hs : c :: s = cs ++ rest) : r.Opens c := by
  obtain ⟨d, cs, rfl⟩ := List.exists_cons_of_ne_nil h.ne_nil
  obtain ⟨rfl, -⟩ := List.cons.inj hs
  exact h.opens

theorem Finds.closes {r : Rule} (h : r.Finds cs) (hc : c ∈ cs.getLast?) : r.Closes c := by
  have hmem : c ∈ cs := List.mem_of_getLast? hc
  cases h with
  | word hw h => exact isAlpha_of_word (.word hw h) c hmem
  | comparison h => exact mem_symbolChars_of_comparison h hmem
  | symbol h =>
    obtain rfl := List.mem_singleton.1 hmem
    exact h
  | cell _ hdigits _ hdigit =>
    rw [List.getLast?_append_of_ne_nil _ hdigits] at hc
    exact hdigit c (List.mem_of_getLast? hc)
  | number n =>
    unfold NumberWord.chars at hc
    split at hc
    next => exact n.isDigit_whole c (List.mem_of_getLast? (by simpa using hc))
    next hplaces =>
      rw [← List.concat_append, List.getLast?_append_of_ne_nil _ hplaces] at hc
      exact n.isDigit_places c (List.mem_of_getLast? hc)

theorem Finds.allowed {r : Rule} (h : r.Finds cs) :
    ∀ c ∈ cs, c.isAlpha ∨ c.isDigit ∨ c = '.' ∨ c ∈ symbolChars := by
  intro c hc
  cases h with
  | word hw h => exact .inl (isAlpha_of_word (.word hw h) c hc)
  | comparison h => exact .inr (.inr (.inr (mem_symbolChars_of_comparison h hc)))
  | symbol h =>
    obtain rfl := List.mem_singleton.1 hc
    exact .inr (.inr (.inr h))
  | cell _ _ halpha hdigit =>
    rcases List.mem_append.1 hc with hc | hc
    · exact .inl (halpha c hc)
    · exact .inr (.inl (hdigit c hc))
  | number n =>
    have hplain := isPlain_of_mem_chars hc
    simp only [isPlain, Bool.or_eq_true, beq_iff_eq] at hplain
    grind

/-- Points are found within numbers only, between their digits. -/
theorem Finds.of_point {r : Rule} (h : r.Finds (before ++ '.' :: after)) :
    (∃ c ∈ before.getLast?, c.isDigit) ∧ ∃ c ∈ after.head?, c.isDigit := by
  generalize hs : before ++ '.' :: after = s at h
  have hpoint : '.' ∈ s := by simp [← hs]
  cases h with
  | word hw h => cases isAlpha_of_word (.word hw h) _ hpoint
  | comparison h => exact absurd (mem_symbolChars_of_comparison h hpoint) (by decide)
  | symbol h =>
    obtain rfl := List.mem_singleton.1 hpoint
    exact absurd h (by decide)
  | cell _ _ halpha hdigit =>
    rcases List.mem_append.1 hpoint with hc | hc
    · cases halpha _ hc
    · cases hdigit _ hc
  | number n =>
    have hwhole : '.' ∉ n.whole := fun hc => by cases n.isDigit_whole _ hc
    have hnone : '.' ∉ n.places := fun hc => by cases n.isDigit_places _ hc
    unfold NumberWord.chars at hs hpoint
    split at hs
    next hplaces => simp [hplaces, hwhole] at hpoint
    next hplaces =>
      obtain ⟨rfl, -, rfl⟩ := (List.append_cons_inj_of_notMem hwhole hnone).1 hs.symm
      refine ⟨⟨_, List.getLast?_eq_getLast_of_ne_nil n.whole_ne_nil, ?_⟩,
        ⟨_, List.head?_eq_some_head hplaces, ?_⟩⟩
      · exact n.isDigit_whole _ (List.getLast_mem n.whole_ne_nil)
      · exact n.isDigit_places _ (List.head_mem hplaces)

/-- No digit follows a cell or a number that is chosen: it would be a part of it. -/
theorem Longest.not_isDigit_head {r : Rule} (h : r.Longest (cs ++ rest) cs)
    (hr : r = .cell ∨ r = .number) : ∀ c ∈ rest.head?, c.isDigit = false := by
  intro c hc
  obtain ⟨rest, rfl⟩ : ∃ tail, rest = c :: tail := List.head?_eq_some_iff.1 hc
  rw [Bool.eq_false_iff]
  intro hdigit
  have hlonger : r.Finds (cs ++ [c]) := by
    rcases hr with rfl | rfl
    · cases h.finds with
      | cell hletters _ halpha hdigits =>
        rw [List.append_assoc]
        refine .cell hletters (by simp) halpha fun d hd => ?_
        rcases List.mem_append.1 hd with hd | hd
        · exact hdigits d hd
        · rwa [List.mem_singleton.1 hd]
    · cases h.finds with
      | number n =>
        by_cases hplaces : n.places = []
        · let m : NumberWord := ⟨n.whole ++ [c], [], by simp, by
            intro d hd
            rcases List.mem_append.1 hd with hd | hd
            · exact n.isDigit_whole d hd
            · rwa [List.mem_singleton.1 hd], by simp⟩
          have hm : m.chars = n.chars ++ [c] := by simp [m, NumberWord.chars, hplaces]
          exact hm ▸ .number m
        · let m : NumberWord := ⟨n.whole, n.places ++ [c], n.whole_ne_nil, n.isDigit_whole, by
            intro d hd
            rcases List.mem_append.1 hd with hd | hd
            · exact n.isDigit_places d hd
            · rwa [List.mem_singleton.1 hd]⟩
          have hm : m.chars = n.chars ++ [c] := by simp [m, NumberWord.chars, hplaces]
          exact hm ▸ .number m
  have hle := h.length_le (cs ++ [c]) ⟨rest, by simp⟩ hlonger
  simp only [List.length_append, List.length_singleton] at hle
  omega

end Rule

theorem NumberWord.count_point {n : NumberWord} (h : '.' ∈ n.chars) : n.chars.count '.' = 1 := by
  have hwhole : '.' ∉ n.whole := fun hc => by cases n.isDigit_whole _ hc
  have hplaces : '.' ∉ n.places := fun hc => by cases n.isDigit_places _ hc
  unfold NumberWord.chars at h ⊢
  split
  next hnil => simp [hnil, hwhole] at h
  next =>
    simp [List.count_append, List.count_eq_zero.2 hwhole, List.count_eq_zero.2 hplaces]

/-! ## Texts that are covered -/

/-- Whether the rules cut a text into tokens and leave nothing out. -/
inductive IsCovered : List Char → Prop
  | nil : IsCovered []
  | append {r : Rule} {cs rest : List Char} (h : r.Selects (cs ++ rest) cs)
    (hrest : IsCovered rest) : IsCovered (cs ++ rest)

theorem Tiles.isCovered (h : Tiles position s ts []) : IsCovered s := by
  generalize hnone : ([] : List Char) = strays at h
  induction h with
  | nil => exact .nil
  | token hs h _ ih =>
    subst hs
    exact .append h (ih hnone)
  | stray => cases hnone

/-- Whether a character may stand before another one in the same token. -/
def Joins (a b : Char) : Prop :=
  a.isAlpha ∧ (b.isAlpha ∨ b.isDigit) ∨ isPlain a ∧ isPlain b ∨ [a, b] ∈ comparisons

theorem Rule.Finds.pairwise {r : Rule} (h : r.Finds cs) : cs.Pairwise Joins := by
  cases h with
  | word hw h =>
    have halpha := isAlpha_of_word (.word hw h)
    exact List.pairwise_of_forall_mem_list fun a ha b hb => .inl ⟨halpha a ha, .inl (halpha b hb)⟩
  | comparison h =>
    have hpair := h
    simp only [comparisons, List.mem_cons, List.not_mem_nil, or_false] at h
    rcases h with rfl | rfl | rfl <;> exact List.pairwise_pair.2 (.inr (.inr hpair))
  | symbol => exact List.pairwise_singleton _ _
  | cell _ _ halpha hdigit =>
    refine List.pairwise_append.2 ⟨?_, ?_, fun a ha b hb => .inl ⟨halpha a ha, .inr (hdigit b hb)⟩⟩
    · exact List.pairwise_of_forall_mem_list fun a ha b hb => .inl ⟨halpha a ha, .inl (halpha b hb)⟩
    · exact List.pairwise_of_forall_mem_list fun a ha b hb =>
        .inr (.inl ⟨isPlain_of_isDigit (hdigit a ha), isPlain_of_isDigit (hdigit b hb)⟩)
  | number n =>
    exact List.pairwise_of_forall_mem_list fun a ha b hb =>
      .inr (.inl ⟨isPlain_of_mem_chars ha, isPlain_of_mem_chars hb⟩)

theorem not_joins_of_isAlpha (ha : a.isAlpha = false) (hb : b.isAlpha) : ¬ Joins a b := by
  rintro (⟨halpha, -⟩ | ⟨-, hplain⟩ | hpair)
  · rw [ha] at halpha
    cases halpha
  · rw [isAlpha_of_isPlain hplain] at hb
    cases hb
  · rw [(of_mem_symbolChars (mem_symbolChars_of_comparison hpair (by simp))).1] at hb
    cases hb

theorem not_joins_of_isPlain (halpha : a.isAlpha = false) (hplain : isPlain a = false)
    (hb : isPlain b) : ¬ Joins a b := by
  rintro (⟨ha, -⟩ | ⟨ha, -⟩ | hpair)
  · rw [halpha] at ha
    cases ha
  · rw [hplain] at ha
    cases ha
  · rw [(of_mem_symbolChars (mem_symbolChars_of_comparison hpair (by simp))).2] at hb
    cases hb

namespace IsCovered

/-- A token ends where two characters cannot stand in one token. -/
theorem of_append (h : IsCovered (before ++ s))
    (hjoin : ∀ a ∈ before.getLast?, ∀ b ∈ s.head?, ¬ Joins a b) : IsCovered s := by
  generalize ht : before ++ s = t at h
  induction h generalizing before with
  | nil =>
    obtain rfl := (List.append_eq_nil_iff.1 ht).2
    exact .nil
  | @append r cs rest h hrest ih =>
    rcases List.append_eq_append_iff.1 ht with ⟨k, rfl, rfl⟩ | ⟨k, rfl, rfl⟩
    · -- the token reaches beyond the place, so it begins there
      rcases eq_or_ne k [] with rfl | hk
      · exact hrest
      rcases List.eq_nil_or_concat' before with rfl | ⟨front, a, rfl⟩
      · exact .append h hrest
      obtain ⟨b, k, rfl⟩ := List.exists_cons_of_ne_nil hk
      have hpairs := (List.pairwise_append.1 h.finds.pairwise).2.2
      exact absurd (hpairs a (by simp) b (by simp)) (hjoin a (by simp) b (by simp))
    · refine ih (fun a ha => hjoin a ?_) (rfl : k ++ s = k ++ s)
      have hk : k ≠ [] := by
        rintro rfl
        cases ha
      rwa [List.getLast?_append_of_ne_nil _ hk]

theorem head_ne_point (h : IsCovered s) : ∀ c ∈ s.head?, c ≠ '.' := by
  rintro c hc rfl
  cases h with
  | nil => cases hc
  | @append r cs rest h =>
    obtain ⟨tail, htail⟩ := List.head?_eq_some_iff.1 hc
    have hopens : r.Opens '.' := h.finds.opens_of_append htail.symm
    cases r with
    | word | cell | number => cases hopens
    | comparison | symbol => exact absurd hopens (show '.' ∉ symbolChars by decide)

/-- Neither a digit nor a point follows a cell or a number. -/
theorem not_isPlain_head {r : Rule} (h : r.Selects (cs ++ rest) cs) (hr : r = .cell ∨ r = .number)
    (hrest : IsCovered rest) : ∀ c ∈ rest.head?, isPlain c = false := by
  intro c hc
  simp [isPlain, h.not_isDigit_head hr c hc, hrest.head_ne_point c hc]

/-- Letters at the head of a covered text are reserved words, or the last of them belong to a cell. -/
theorem of_letters (h : IsCovered (letters ++ s)) (halpha : ∀ c ∈ letters, c.isAlpha)
    (hs : ∀ c ∈ s.head?, c.isAlpha = false) :
    IsWords letters ∧ IsCovered s ∨
      ∃ digits rest, digits ≠ [] ∧ (∀ c ∈ digits, c.isDigit) ∧ s = digits ++ rest ∧
        ∀ c ∈ rest.head?, isPlain c = false := by
  generalize ht : letters ++ s = t at h
  induction h generalizing letters with
  | nil =>
    obtain ⟨rfl, rfl⟩ := List.append_eq_nil_iff.1 ht
    exact .inl ⟨.nil, .nil⟩
  | @append r cs rest h hrest ih =>
    rcases letters with _ | ⟨a, letters⟩
    · obtain rfl : s = cs ++ rest := ht
      exact .inl ⟨.nil, .append h hrest⟩
    have hopens : r.Opens a := h.finds.opens_of_append ht
    have ha := halpha a List.mem_cons_self
    cases r with
    | word =>
      obtain ⟨left, hleft, rfl⟩ := exists_append_of_append_eq h.finds.isAlpha_of_word hs ht
      rw [hleft] at halpha ⊢
      rcases ih (fun c hc => halpha c (List.mem_append_right cs hc)) rfl with hwords | hcell
      · cases h.finds with
        | word hw hlower => exact .inl ⟨.append hw hlower hwords.1, hwords.2⟩
      · exact .inr hcell
    | cell =>
      right
      have hplain := not_isPlain_head h (.inl rfl) hrest
      cases h.finds with
      | @cell front digits _ hdigits hfront hdigit =>
        rw [List.append_assoc] at ht
        have hstop : ∀ c ∈ (digits ++ rest).head?, c.isAlpha = false := by
          intro c hc
          rw [List.head?_append_of_ne_nil _ hdigits] at hc
          exact isAlpha_of_isDigit (hdigit c (List.mem_of_head? hc))
        exact ⟨digits, rest, hdigits, hdigit, (eq_of_append_eq halpha hs hfront hstop ht).2, hplain⟩
    | comparison | symbol =>
      rw [(of_mem_symbolChars hopens).1] at ha
      cases ha
    | number =>
      rw [isAlpha_of_isDigit hopens] at ha
      cases ha

/-- Digits and points at the head of a covered text are one number. -/
theorem exists_number (h : IsCovered (run ++ after)) (hrun : ∀ c ∈ run, isPlain c) (hne : run ≠ [])
    (hafter : ∀ c ∈ after.head?, isPlain c = false) : ∃ n : NumberWord, run = n.chars := by
  generalize ht : run ++ after = t at h
  cases h with
  | nil => exact absurd (List.append_eq_nil_iff.1 ht).1 hne
  | @append r cs rest h hrest =>
    obtain ⟨a, run, rfl⟩ := List.exists_cons_of_ne_nil hne
    have hopens : r.Opens a := h.finds.opens_of_append ht
    have ha := hrun a List.mem_cons_self
    cases r with
    | number =>
      have hplain := not_isPlain_head h (.inr rfl) hrest
      cases h.finds with
      | number n =>
        exact ⟨n, (eq_of_append_eq hrun hafter (fun c => isPlain_of_mem_chars) hplain ht).1⟩
    | comparison | symbol =>
      rw [(of_mem_symbolChars hopens).2] at ha
      cases ha
    | word | cell =>
      rw [isPlain_of_isAlpha hopens] at ha
      cases ha

/-- A run with a point is a number, and the letters before it are reserved words. -/
theorem isWords_of_point (h : IsCovered (before ++ letters ++ run ++ after))
    (hbefore : ∀ c ∈ before.getLast?, c.isAlpha = false) (hletters : ∀ c ∈ letters, c.isAlpha)
    (hrun : IsRun isPlain (before ++ letters) run after) (hpoint : '.' ∈ run) :
    IsWords letters ∧ run.count '.' = 1 := by
  have hhead : ∀ c ∈ (run ++ after).head?, isPlain c := by
    intro c hc
    rw [List.head?_append_of_ne_nil _ hrun.ne_nil] at hc
    exact hrun.all c (List.mem_of_head? hc)
  have hcovered : IsCovered (letters ++ (run ++ after)) := by
    rw [List.append_assoc, List.append_assoc] at h
    refine h.of_append fun a ha b hb => ?_
    rcases letters with _ | ⟨d, letters⟩
    · exact not_joins_of_isPlain (hbefore a ha) (hrun.last_before a (by simpa using ha)) (hhead b hb)
    · obtain rfl : d = b := by simpa using hb
      exact not_joins_of_isAlpha (hbefore a ha) (hletters d List.mem_cons_self)
  rcases hcovered.of_letters hletters fun c hc => isAlpha_of_isPlain (hhead c hc) with
    ⟨hwords, hcovered⟩ | ⟨digits, rest, -, hdigits, hsplit, hrest⟩
  · obtain ⟨n, rfl⟩ := hcovered.exists_number hrun.all hrun.ne_nil hrun.head_after
    exact ⟨hwords, n.count_point hpoint⟩
  · obtain ⟨rfl, -⟩ := eq_of_append_eq hrun.all hrun.head_after
      (fun c hc => isPlain_of_isDigit (hdigits c hc)) hrest hsplit
    cases hdigits _ hpoint

theorem digits_around (h : IsCovered (before ++ '.' :: after)) :
    (∃ c ∈ before.getLast?, c.isDigit) ∧ ∃ c ∈ after.head?, c.isDigit := by
  generalize ht : before ++ '.' :: after = t at h
  induction h generalizing before with
  | nil => simp at ht
  | @append r cs rest h hrest ih =>
    rcases List.append_eq_append_iff.1 ht with ⟨k, rfl, hk⟩ | ⟨k, rfl, hk⟩
    · rcases k with _ | ⟨c, k⟩
      · obtain rfl : '.' :: after = rest := hk
        exact absurd rfl (hrest.head_ne_point '.' rfl)
      obtain ⟨rfl, rfl⟩ := List.cons.inj hk
      obtain ⟨hbefore, c, hc, hdigit⟩ := h.finds.of_point
      exact ⟨hbefore, c, by simp [Option.mem_def.1 hc], hdigit⟩
    · obtain ⟨⟨c, hc, hdigit⟩, hafter⟩ := ih hk.symm
      exact ⟨⟨c, by simp [List.getLast?_append, Option.mem_def.1 hc], hdigit⟩, hafter⟩

/-- The conditions hold of what the rules cover. -/
theorem isRegular (h : IsCovered s) : IsRegular s where
  allowed := by
    induction h with
    | nil => simp
    | append h _ ih =>
      intro c hc
      rcases List.mem_append.1 hc with hc | hc
      · exact h.finds.allowed c hc
      · exact ih c hc
  letters before run after hs hrun hdigit := by
    rw [hs, List.append_assoc] at h
    have hcovered : IsCovered (run ++ after) := by
      refine h.of_append fun a ha b hb => ?_
      rw [List.head?_append_of_ne_nil _ hrun.ne_nil] at hb
      exact not_joins_of_isAlpha (hrun.last_before a ha) (hrun.all b (List.mem_of_head? hb))
    rcases hcovered.of_letters hrun.all hrun.head_after with
      ⟨hwords, -⟩ | ⟨digits, rest, hne, hdigits, rfl, -⟩
    · exact hwords
    · obtain ⟨d, digits, rfl⟩ := List.exists_cons_of_ne_nil hne
      have hd := hdigits d List.mem_cons_self
      rw [hdigit d rfl] at hd
      cases hd
  digits_around before after hs := (hs ▸ h).digits_around
  single_point before run after hs hrun hpoint := by
    have hsplit := List.rdropWhile_append_rtakeWhile (p := Char.isAlpha) (l := before)
    rw [← hsplit] at hs hrun
    refine ((hs ▸ h).isWords_of_point ?_ (fun c => List.mem_rtakeWhile_imp) hrun hpoint).2
    intro c hc
    have hne : before.rdropWhile Char.isAlpha ≠ [] := by
      intro hnil
      rw [hnil] at hc
      cases hc
    have hlast := List.rdropWhile_last_not Char.isAlpha before hne
    obtain rfl := Option.some.inj ((List.getLast?_eq_getLast_of_ne_nil hne).symm.trans hc)
    simpa using hlast
  unattached before letters run after hs hletters hrun hpoint :=
    ((hs ▸ h).isWords_of_point hletters.last_before hletters.all hrun hpoint).1

end IsCovered

/-! ## Texts that meet the conditions -/

namespace IsRegular

/-- A run of letters within a text is the end of one in the text with a token before it. If it grows,
then by a reserved word. -/
theorem exists_longer_run (h : IsRun Char.isAlpha before run after)
    (hcs : (∀ c ∈ cs.getLast?, c.isAlpha = false) ∨ Rule.Finds .word cs) :
    ∃ before' run', cs ++ (before ++ run) = before' ++ run' ∧
      IsRun Char.isAlpha before' run' after ∧ (IsWords run' → IsWords run) := by
  rcases hcs with hlast | hword
  · exact ⟨cs ++ before, run, by simp, h.append_left fun _ => hlast, id⟩
  rcases eq_or_ne before [] with rfl | hbefore
  · refine ⟨[], cs ++ run, by simp, ⟨by simp [h.ne_nil], ?_, by simp, h.head_after⟩,
      fun hwords => hwords.of_append hword⟩
    intro c hc
    rcases List.mem_append.1 hc with hc | hc
    · exact hword.isAlpha_of_word c hc
    · exact h.all c hc
  · exact ⟨cs ++ before, run, by simp, h.append_left fun hnil => absurd hnil hbefore, id⟩

/-- The conditions hold of what follows a token, if no digits or points are cut apart and letters only
after a reserved word. -/
theorem of_append (h : IsRegular (cs ++ rest))
    (hplain : ∀ a ∈ cs.getLast?, ∀ b ∈ rest.head?, isPlain b → isPlain a = false)
    (hcs : (∀ c ∈ cs.getLast?, c.isAlpha = false) ∨ Rule.Finds .word cs) : IsRegular rest where
  allowed c hc := h.allowed c (List.mem_append_right cs hc)
  letters before run after hs hrun hdigit := by
    obtain ⟨before', run', hsplit, hrun', hwords⟩ := exists_longer_run hrun hcs
    refine hwords (h.letters before' run' after ?_ hrun' hdigit)
    rw [hs, ← hsplit]
    simp
  digits_around before after hs := by
    obtain ⟨⟨c, hc, hdigit⟩, hafter⟩ := h.digits_around (cs ++ before) after (by simp [hs])
    refine ⟨⟨c, ?_, hdigit⟩, hafter⟩
    rcases eq_or_ne before [] with rfl | hbefore
    · have hnot := hplain c (by simpa using hc) '.' (by simp [hs]) (by decide)
      rw [isPlain_of_isDigit hdigit] at hnot
      cases hnot
    · rwa [List.getLast?_append_of_ne_nil cs hbefore] at hc
  single_point before run after hs hrun hpoint := by
    refine h.single_point (cs ++ before) run after (by simp [hs]) (hrun.append_left ?_) hpoint
    rintro rfl a ha
    obtain ⟨b, tail, rfl⟩ := List.exists_cons_of_ne_nil hrun.ne_nil
    exact hplain a ha b (by simp [hs]) (hrun.all b List.mem_cons_self)
  unattached before letters run after hs hletters hrun hpoint := by
    obtain ⟨before', letters', hsplit, hletters', hwords⟩ := exists_longer_run hletters hcs
    have hne : before ++ letters ≠ [] := by simp [hletters.ne_nil]
    refine hwords (h.unattached before' letters' run after ?_ hletters' ?_ hpoint)
    · rw [hs, ← hsplit]
      simp
    · rw [← hsplit]
      exact hrun.append_left fun hnil => absurd hnil hne

/-- No point follows a cell that is chosen: its letters are not reserved words. -/
theorem head_ne_point_of_cell (h : IsRegular (cs ++ rest)) (hr : Rule.cell.Selects (cs ++ rest) cs) :
    ∀ c ∈ rest.head?, c ≠ '.' := by
  rintro c hc rfl
  obtain ⟨tail, rfl⟩ := List.head?_eq_some_iff.1 hc
  obtain ⟨run, after, rfl, hrun, hafter⟩ := exists_head_run isPlain tail
  cases hr.finds with
  | @cell letters digits hletters hdigits halpha hdigit =>
    have hstop : ∀ c ∈ ((digits ++ '.' :: run) ++ after).head?, c.isAlpha = false := by
      intro c hc
      rw [List.append_assoc, List.head?_append_of_ne_nil _ hdigits] at hc
      exact isAlpha_of_isDigit (hdigit c (List.mem_of_head? hc))
    have hplain := isPlain_append_point (fun c hc => isPlain_of_isDigit (hdigit c hc)) hrun
    have hlast : ∀ c ∈ ([] ++ letters).getLast?, isPlain c = false := fun c hc =>
      isPlain_of_isAlpha (halpha c (List.mem_of_getLast? hc))
    have hwords : IsWords letters :=
      h.unattached [] letters (digits ++ '.' :: run) after (by simp)
        ⟨hletters, halpha, by simp, hstop⟩ ⟨by simp, hplain, hlast, hafter⟩ (by simp)
    obtain ⟨word, others, rfl, hword⟩ := hwords.exists_word hletters
    exact hr.fails .word (by decide) word ⟨_, by simp only [List.append_assoc]; rfl⟩ hword

/-- No point follows a number that is chosen: it would be a second one, or have digits behind it that
belong to the number. -/
theorem head_ne_point_of_number (h : IsRegular (cs ++ rest))
    (hr : Rule.number.Selects (cs ++ rest) cs) : ∀ c ∈ rest.head?, c ≠ '.' := by
  rintro c hc rfl
  obtain ⟨tail, rfl⟩ := List.head?_eq_some_iff.1 hc
  cases hr.finds with
  | number n =>
    by_cases hplaces : n.places = []
    · obtain ⟨-, c, hc, hdigit⟩ := h.digits_around n.chars tail rfl
      obtain ⟨tail, rfl⟩ := List.head?_eq_some_iff.1 hc
      let m : NumberWord := ⟨n.whole, [c], n.whole_ne_nil, n.isDigit_whole, by simpa using hdigit⟩
      have hm : m.chars = n.chars ++ ['.', c] := by simp [m, NumberWord.chars, hplaces]
      have hle := hr.length_le m.chars ⟨tail, by simp [hm]⟩ (.number m)
      rw [hm, List.length_append] at hle
      exact absurd hle (by simp)
    · have hpoint : '.' ∈ n.chars := by simp [NumberWord.chars, hplaces]
      obtain ⟨run, after, rfl, hrun, hafter⟩ := exists_head_run isPlain tail
      have hplain := isPlain_append_point (fun c => isPlain_of_mem_chars (n := n)) hrun
      have hcount := h.single_point [] (n.chars ++ '.' :: run) after (by simp)
        ⟨by simp, hplain, by simp, hafter⟩ (by simp)
      simp [List.count_append, n.count_point hpoint] at hcount

theorem of_selects {r : Rule} (h : IsRegular (cs ++ rest)) (hr : r.Selects (cs ++ rest) cs) :
    IsRegular rest := by
  have hcloses : ∀ c ∈ cs.getLast?, r.Closes c := fun c hc => hr.finds.closes hc
  refine h.of_append ?_ ?_
  · intro a ha b hb hplain
    have hlast := hcloses a ha
    cases r with
    | word => exact isPlain_of_isAlpha hlast
    | comparison | symbol => exact (of_mem_symbolChars hlast).2
    | cell =>
      have hpoint := h.head_ne_point_of_cell hr b hb
      have hdigit := hr.not_isDigit_head (.inl rfl) b hb
      simp [isPlain, hpoint, hdigit] at hplain
    | number =>
      have hpoint := h.head_ne_point_of_number hr b hb
      have hdigit := hr.not_isDigit_head (.inr rfl) b hb
      simp [isPlain, hpoint, hdigit] at hplain
  · cases r with
    | word => exact .inr hr.finds
    | comparison | symbol => exact .inl fun c hc => (of_mem_symbolChars (hcloses c hc)).1
    | cell | number => exact .inl fun c hc => isAlpha_of_isDigit (hcloses c hc)

/-- Some rule finds something at the head. -/
theorem exists_finds (h : IsRegular (c :: s)) :
    ∃ r : Rule, ∃ cs, cs <+: c :: s ∧ r.Finds cs := by
  rcases h.allowed c List.mem_cons_self with halpha | hdigit | rfl | hsymbol
  · obtain ⟨letters, after, hs, hletters, hafter⟩ := exists_head_run Char.isAlpha (c :: s)
    have hne : letters ≠ [] := by
      rintro rfl
      rw [List.nil_append] at hs
      subst hs
      rw [hafter c rfl] at halpha
      cases halpha
    by_cases hdigit : ∀ d ∈ after.head?, d.isDigit = false
    · obtain ⟨word, others, rfl, hword⟩ :=
        (h.letters [] letters after hs ⟨hne, hletters, by simp, hafter⟩ hdigit).exists_word hne
      exact ⟨.word, word, ⟨others ++ after, by rw [hs, List.append_assoc]⟩, hword⟩
    · obtain ⟨d, hd, hdigit⟩ : ∃ d ∈ after.head?, d.isDigit := by simpa using hdigit
      obtain ⟨tail, rfl⟩ := List.head?_eq_some_iff.1 hd
      exact ⟨.cell, letters ++ [d], ⟨tail, by rw [hs, List.append_assoc]; rfl⟩,
        .cell hne (by simp) hletters (by simpa using hdigit)⟩
  · let n : NumberWord := ⟨[c], [], by simp, by simpa using hdigit, by simp⟩
    exact ⟨.number, n.chars, ⟨s, rfl⟩, .number n⟩
  · obtain ⟨⟨d, hd, -⟩, -⟩ := h.digits_around [] s rfl
    cases hd
  · exact ⟨.symbol, [c], ⟨s, rfl⟩, .symbol hsymbol⟩

end IsRegular

/-- Nothing is left out of a text that meets the conditions. -/
theorem Tiles.strays_eq_nil (h : Tiles position s ts strays) (hs : IsRegular s) : strays = [] := by
  induction h with
  | nil => rfl
  | token hsplit hr _ ih =>
    subst hsplit
    exact ih (hs.of_selects hr)
  | stray hfails =>
    obtain ⟨r, cs, hcs, hfinds⟩ := hs.exists_finds
    exact absurd hfinds (hfails r cs hcs)

/-! ## Formulas -/

/-- Invalid characters are reported unless the formula without its separators meets the conditions. -/
theorem not_invalid_iff_isRegular (formula : String) (f : List Char)
    (hcomma : ',' ∉ formula.toList) (hf : f = formula.toList.filter (· ∉ [' ', '\t', '\r', '\n'])) :
    (∀ e, tokenize formula = .error e → e.category ≠ .invalidCharacters) ↔ IsRegular f := by
  obtain rfl : f = withoutSeparators formula := by rw [hf, withoutSeparators_eq]
  have htiles := tiles_pieces formula
  constructor
  · intro hvalid
    have hnone : (pieces formula).filterMap Piece.stray? = [] := by
      by_contra hstrays
      exact hvalid _ (tokenize_of_stray hcomma hstrays) rfl
    rw [hnone] at htiles
    exact htiles.isCovered.isRegular
  · intro hregular e he hcategory
    exact (eq_strayCharacters_of_tokenize he hcategory).1 (htiles.strays_eq_nil hregular)

/-- Reserved words may be written together and before a number with a point. After other letters the
digits are those of a cell, and the point is left out. -/
theorem not_invalid_iff_isRegular_words :
    IsRegular "ab1ModDiv1.5".toList ∧
      tokenize "x mod1 .5" = .error (.strayCharacters ".") ∧ ¬ IsRegular "xmod1.5".toList := by
  have htokens : tokenize "a b1 Mod Div1 .5" =
      .ok [⟨.cell, "AB1", 0⟩, ⟨.operator, "mod", 3⟩, ⟨.operator, "div", 6⟩, ⟨.number, "1.5", 9⟩] := by
    decide +kernel
  have hstray : tokenize "x mod1 .5" = .error (.strayCharacters ".") := by decide +kernel
  refine ⟨?_, hstray, ?_⟩
  · apply (not_invalid_iff_isRegular "a b1 Mod Div1 .5" _ (by decide) (by decide)).1
    intro e he
    rw [htokens] at he
    cases he
  · intro hregular
    exact (not_invalid_iff_isRegular "x mod1 .5" _ (by decide) (by decide)).2 hregular _ hstray rfl

end Spreadsheet
