import Spreadsheet.Proofs.Formula.Spelling

/-!
# How tokens tile a formula

A rule finds texts of one form, and takes the longest of them at the head of what is left. Rules are
tried in a fixed order, and a character at which none of them finds anything is left out. This
describes reading without the functions that read: formulas are tiled by the tokens found and the
characters left out, in exactly one way.

## Main definitions

* `Rule`, `Rule.Finds` — the rules and the texts that they find.
* `Rule.Selects` — the rule and the text that are chosen at the head of a text.
* `Tiles` — texts cut from left to right into tokens and stray characters.
* `IsTiling` — tokens that cover a text, each of them at its place.

## Main statements

* `Rule.lexeme?_follows` — reading a lexeme follows the rules.
* `Tiles.unique` — there is only one way to tile a text.
* `tiles_pieces` — formulas are cut into such tiles.
* `tokenize_tiles` — tokens cover the formula; otherwise what they leave is reported.
-/

namespace Spreadsheet

variable {s cs ds rest : List Char} {position : Nat} {ts us : List Token} {strays : List Char}

/-! ## Rules -/

/-- The rules by which tokens are found. -/
inductive Rule
  | word
  | comparison
  | symbol
  | cell
  | number
deriving DecidableEq, Repr

/-- The comparisons of two characters. -/
def comparisons : List (List Char) :=
  [['<', '>'], ['<', '='], ['>', '=']]

/-- The operators of one character and the parentheses. -/
def symbolChars : List Char :=
  ['+', '-', '*', '/', '=', '<', '>', '(', ')']

namespace Rule

/-- The place of a rule in the order in which rules are tried. -/
def place : Rule → Nat
  | word => 0
  | comparison => 1
  | symbol => 2
  | cell => 3
  | number => 4

/-- The texts that a rule finds. -/
inductive Finds : Rule → List Char → Prop
  | word {w : String} {cs : List Char} (hw : w ∈ reservedWords)
    (h : cs.map Char.toLower = w.toList) : Finds .word cs
  | comparison {cs : List Char} (h : cs ∈ comparisons) : Finds .comparison cs
  | symbol {c : Char} (h : c ∈ symbolChars) : Finds .symbol [c]
  | cell {letters digits : List Char} (hletters : letters ≠ []) (hdigits : digits ≠ [])
    (halpha : ∀ c ∈ letters, c.isAlpha) (hdigit : ∀ c ∈ digits, c.isDigit) :
    Finds .cell (letters ++ digits)
  | number (n : NumberWord) : Finds .number n.chars

/-- The word that a text found by a rule stands for: reserved words are put in lower case, cells in
upper case. -/
def wordOf : Rule → List Char → Word
  | word, cs =>
    let text := String.ofList (cs.map Char.toLower)
    ⟨if text = "inc" ∨ text = "dec" then .function else .operator, text⟩
  | comparison, cs => ⟨.operator, String.ofList cs⟩
  | symbol, cs =>
    ⟨if cs = ['('] then .openParen else if cs = [')'] then .closeParen else .operator,
      String.ofList cs⟩
  | cell, cs => ⟨.cell, String.ofList (cs.map Char.toUpper)⟩
  | number, cs => ⟨.number, String.ofList cs⟩

@[simp] theorem length_text_wordOf (r : Rule) (cs : List Char) :
    (r.wordOf cs).text.length = cs.length := by
  cases r <;> simp [wordOf]

/-- Whether a rule finds nothing at the head of a text. -/
def Fails (r : Rule) (s : List Char) : Prop :=
  ∀ cs, cs <+: s → ¬ r.Finds cs

/-- Whether a text is the longest that a rule finds at the head of `s`. -/
structure Longest (r : Rule) (s cs : List Char) : Prop where
  isPrefix : cs <+: s
  finds : r.Finds cs
  length_le : ∀ ds, ds <+: s → r.Finds ds → ds.length ≤ cs.length

/-- Whether a rule is the first that finds something at the head of `s`, and `cs` the longest text
that it finds. -/
structure Selects (r : Rule) (s cs : List Char) : Prop extends Longest r s cs where
  fails : ∀ q : Rule, q.place < r.place → q.Fails s

theorem Finds.ne_nil {r : Rule} (h : r.Finds cs) : cs ≠ [] := by
  cases h with
  | word hw h =>
    rintro rfl
    obtain ⟨-, -, -, hlen⟩ := exists_wordKind?_of_reserved hw
    rw [← h] at hlen
    cases hlen
  | comparison h =>
    rintro rfl
    exact absurd h (by decide)
  | symbol h => simp
  | cell hletters => simp [hletters]
  | number n => simp [NumberWord.chars, n.whole_ne_nil]

theorem place_inj {q r : Rule} (h : q.place = r.place) : q = r := by
  revert h
  cases q <;> cases r <;> decide

/-- At most one rule and one text are chosen. -/
theorem Selects.unique {q r : Rule} (hr : r.Selects s cs) (hq : q.Selects s ds) :
    q = r ∧ ds = cs := by
  obtain rfl : q = r := by
    rcases Nat.lt_trichotomy q.place r.place with hlt | heq | hgt
    · exact absurd hq.finds (hr.fails q hlt ds hq.isPrefix)
    · exact place_inj heq
    · exact absurd hr.finds (hq.fails r hgt cs hr.isPrefix)
  have hlen : ds.length = cs.length :=
    Nat.le_antisymm (hr.length_le ds hq.isPrefix hq.finds) (hq.length_le cs hr.isPrefix hr.finds)
  exact ⟨rfl, (List.prefix_of_prefix_length_le hq.isPrefix hr.isPrefix
    (Nat.le_of_eq hlen)).eq_of_length hlen⟩

/-! ## Lexemes -/

/-- Whether a lexeme, if there is one, stands for the longest text that a rule finds at the head of
`s`, and there is none only if the rule finds nothing. -/
def Yields (r : Rule) (s : List Char) : Option Lexeme → Prop
  | some l => ∃ cs, r.Longest s cs ∧ l.length = cs.length ∧ l.word = r.wordOf cs
  | none => r.Fails s

/-- Where all texts of a rule have one length, every text that it finds is the longest. -/
theorem Longest.of_length {r : Rule} {n : Nat} (hlen : ∀ ds, r.Finds ds → ds.length = n)
    (hcs : cs <+: s) (h : r.Finds cs) : r.Longest s cs where
  isPrefix := hcs
  finds := h
  length_le ds _ hds := Nat.le_of_eq ((hlen ds hds).trans (hlen cs h).symm)

theorem Finds.length_of_word (h : Finds .word cs) : cs.length = 3 := by
  cases h with
  | word hw h =>
    obtain ⟨-, -, -, hlen⟩ := exists_wordKind?_of_reserved hw
    rw [← hlen, ← h, List.length_map]

theorem Finds.eq_take_of_word (h : Finds .word cs) (hcs : cs <+: s) : cs = s.take 3 := by
  rw [← h.length_of_word]
  exact List.prefix_iff_eq_take.1 hcs

theorem wordOf_word {w : String} {kind : Token.Kind} (hw : w ∈ reservedWords)
    (hkind : wordKind? w.toList = some kind) (h : cs.map Char.toLower = w.toList) :
    word.wordOf cs = ⟨kind, w⟩ := by
  simp only [wordOf, h, String.ofList_toList]
  simp only [reservedWords, List.mem_cons, List.not_mem_nil, or_false] at hw
  rcases hw with rfl | rfl | rfl | rfl <;> cases hkind <;> decide

theorem yields_word (s : List Char) : word.Yields s (wordLexeme? s) := by
  have htake : (s.take 3).map lowerChar = (s.take 3).map Char.toLower :=
    List.map_congr_left fun c _ => lowerChar_eq_toLower c
  cases hkind : wordKind? ((s.take 3).map Char.toLower) with
  | some kind =>
    obtain ⟨w, hw, hlower⟩ := mem_reservedWords_of_wordKind? (hkind ▸ Option.some_ne_none kind)
    have hfinds : Finds .word (s.take 3) := .word hw hlower
    simp only [wordLexeme?, htake, hkind, Option.map_some]
    refine ⟨s.take 3, .of_length (fun _ => Finds.length_of_word) (List.take_prefix 3 s) hfinds,
      hfinds.length_of_word.symm, ?_⟩
    rw [wordOf_word hw (hlower ▸ hkind) hlower]
    simp [Lexeme.word, hlower]
  | none =>
    simp only [wordLexeme?, htake, hkind, Option.map_none]
    intro cs hcs hfinds
    rw [hfinds.eq_take_of_word hcs] at hfinds
    cases hfinds with
    | word hw h =>
      obtain ⟨kind, hsome, -⟩ := exists_wordKind?_of_reserved hw
      rw [h, hsome] at hkind
      cases hkind

theorem Finds.length_of_comparison (h : Finds .comparison cs) : cs.length = 2 := by
  cases h with
  | comparison h =>
    simp only [comparisons, List.mem_cons, List.not_mem_nil, or_false] at h
    rcases h with rfl | rfl | rfl <;> rfl

theorem longest_symbol {c : Char} (h : c ∈ symbolChars) : symbol.Longest (c :: s) [c] :=
  .of_length (n := 1) (fun ds hds => by cases hds; rfl) ⟨s, rfl⟩ (.symbol h)

/-- Comparisons are tried before the symbols that they begin with. -/
theorem yields_symbol (s : List Char) :
    (comparison.Yields s (symbolLexeme? s) ∧ symbolLexeme? s ≠ none) ∨
      (comparison.Fails s ∧ symbol.Yields s (symbolLexeme? s)) := by
  by_cases hpair : ∃ cs ∈ comparisons, cs <+: s
  · left
    obtain ⟨cs, hcs, rest, rfl⟩ := hpair
    have hlongest : comparison.Longest (cs ++ rest) cs :=
      .of_length (fun _ => Finds.length_of_comparison) (List.prefix_append _ _) (.comparison hcs)
    have hlexeme : symbolLexeme? (cs ++ rest) = some ⟨.operator, cs, cs.length⟩ := by
      simp only [comparisons, List.mem_cons, List.not_mem_nil, or_false] at hcs
      rcases hcs with rfl | rfl | rfl <;> rfl
    rw [hlexeme]
    exact ⟨⟨cs, hlongest, rfl, rfl⟩, Option.some_ne_none _⟩
  · right
    refine ⟨fun cs hcs hfinds => ?_, ?_⟩
    · cases hfinds with
      | comparison h => exact hpair ⟨cs, h, hcs⟩
    have hnot : ∀ cs ∈ comparisons, ∀ rest, cs ++ rest ≠ s := fun cs hcs rest h =>
      hpair ⟨cs, hcs, rest, h⟩
    unfold symbolLexeme?
    split
    next rest => exact absurd rfl (hnot ['<', '>'] (by decide) rest)
    next rest => exact absurd rfl (hnot ['<', '='] (by decide) rest)
    next rest => exact absurd rfl (hnot ['>', '='] (by decide) rest)
    next => exact ⟨['('], longest_symbol (by decide), rfl, rfl⟩
    next => exact ⟨[')'], longest_symbol (by decide), rfl, rfl⟩
    next c rest _ _ _ hopen hclose =>
      have hopen : c ≠ '(' := hopen
      have hclose : c ≠ ')' := hclose
      split
      next hc =>
        have hmem : c ∈ ['+', '-', '*', '/', '=', '<', '>'] := List.contains_iff_mem.1 hc
        refine ⟨[c], longest_symbol (List.mem_append_left ['(', ')'] hmem), rfl, ?_⟩
        simp [wordOf, Lexeme.word, hopen, hclose]
      next hc =>
        intro cs hcs hfinds
        cases hfinds with
        | @symbol d hd =>
          obtain rfl : d = c := (List.cons_prefix_cons.1 hcs).1
          simp_all [symbolChars]
    next =>
      intro cs hcs hfinds
      exact hfinds.ne_nil (List.prefix_nil.1 hcs)

/-- The letters and the first digits of a cell at the head of `s`. -/
theorem Finds.parts_of_cell (h : Finds .cell cs) (hcs : cs <+: s) :
    ∃ digits, digits ≠ [] ∧ digits <+: (s.dropWhile Char.isAlpha).takeWhile Char.isDigit ∧
      s.takeWhile Char.isAlpha ≠ [] ∧ cs = s.takeWhile Char.isAlpha ++ digits := by
  obtain ⟨rest, rfl⟩ := hcs
  cases h with
  | @cell letters digits hletters hdigits halpha hdigit =>
    have hstop : ∀ c ∈ (digits ++ rest).head?, c.isAlpha = false := by
      intro c hc
      obtain ⟨d, digits, rfl⟩ := List.exists_cons_of_ne_nil hdigits
      obtain rfl : d = c := by simpa using hc
      exact isAlpha_of_isDigit (hdigit d List.mem_cons_self)
    rw [List.append_assoc, takeWhile_append_of_stop halpha hstop,
      dropWhile_append_of_stop halpha hstop, List.takeWhile_append_of_pos hdigit]
    exact ⟨digits, hdigits, List.prefix_append _ _, hletters, rfl⟩

theorem Finds.toNat_lt_of_cell (h : Finds .cell cs) : ∀ c ∈ cs, c.toNat < 0x80 := by
  cases h with
  | cell _ _ halpha hdigit =>
    intro c hc
    rcases List.mem_append.1 hc with hc | hc
    · have hletter := isAlpha_iff.1 (halpha c hc)
      omega
    · have hdigit := isDigit_iff.1 (hdigit c hc)
      omega

theorem yields_cell (s : List Char) : cell.Yields s (cellLexeme? s) := by
  unfold cellLexeme?
  rw [show isLetter = Char.isAlpha from funext isLetter_eq_isAlpha]
  dsimp only
  split
  next hnone =>
    intro cs hcs hfinds
    obtain ⟨digits, hdigits, hstart, hletters, -⟩ := hfinds.parts_of_cell hcs
    simp only [Bool.or_eq_true, List.isEmpty_iff] at hnone
    rcases hnone with hnil | hnil
    · exact hletters hnil
    · exact hdigits (List.prefix_nil.1 (hnil ▸ hstart))
  next hparts =>
    simp only [Bool.or_eq_true, List.isEmpty_iff, not_or] at hparts
    have hfinds := Finds.cell hparts.1 hparts.2 (List.all_eq_true.1 List.all_takeWhile)
      (List.all_eq_true.1 List.all_takeWhile)
    have hstart : s.takeWhile Char.isAlpha ++ (s.dropWhile Char.isAlpha).takeWhile Char.isDigit
        <+: s :=
      ⟨(s.dropWhile Char.isAlpha).dropWhile Char.isDigit, by
        rw [List.append_assoc, List.takeWhile_append_dropWhile, List.takeWhile_append_dropWhile]⟩
    refine ⟨_, ⟨hstart, hfinds, fun ds hds hds' => ?_⟩, List.length_append.symm, ?_⟩
    · obtain ⟨digits, -, hdigits, -, rfl⟩ := hds'.parts_of_cell hds
      simpa using hdigits.length_le
    · rw [Lexeme.word, wordOf, flatMap_upperChar hfinds.toNat_lt_of_cell]

theorem length_le_of_number (n : NumberWord) (h : n.chars <+: s) :
    n.chars.length ≤
      (s.takeWhile Char.isDigit ++ fraction (s.dropWhile Char.isDigit)).length := by
  obtain ⟨rest, rfl⟩ := h
  unfold NumberWord.chars
  by_cases hplaces : n.places = []
  · rw [if_pos hplaces, List.append_nil, List.takeWhile_append_of_pos n.isDigit_whole,
      List.append_assoc, List.length_append]
    exact Nat.le_add_right _ _
  · have hstop : ∀ c ∈ ('.' :: (n.places ++ rest)).head?, c.isDigit = false := by simp
    have hpart : (n.places ++ rest).takeWhile Char.isDigit =
        n.places ++ rest.takeWhile Char.isDigit := List.takeWhile_append_of_pos n.isDigit_places
    rw [if_neg hplaces, List.append_assoc, List.cons_append,
      takeWhile_append_of_stop n.isDigit_whole hstop,
      dropWhile_append_of_stop n.isDigit_whole hstop, fraction, hpart]
    simp [hplaces]

theorem yields_number (s : List Char) : number.Yields s (numberLexeme? s) := by
  unfold numberLexeme?
  dsimp only
  split
  next hnone =>
    intro cs hcs hfinds
    cases hfinds with
    | number n =>
      obtain ⟨rest, rfl⟩ := hcs
      have hwhole : (n.chars ++ rest).takeWhile Char.isDigit ≠ [] := by
        rw [NumberWord.chars, List.append_assoc, List.takeWhile_append_of_pos n.isDigit_whole]
        simp [n.whole_ne_nil]
      exact hwhole (List.isEmpty_iff.1 hnone)
  next hwhole =>
    obtain ⟨places, rest, hplaces, hfraction, hrest⟩ := fraction_eq (s.dropWhile Char.isDigit)
    let n : NumberWord := ⟨s.takeWhile Char.isDigit, places, by simpa using hwhole,
      List.all_eq_true.1 List.all_takeWhile, hplaces⟩
    have hchars : s.takeWhile Char.isDigit ++ fraction (s.dropWhile Char.isDigit) = n.chars := by
      rw [hfraction]
      rfl
    have hstart : n.chars <+: s :=
      ⟨rest, by rw [← hchars, List.append_assoc, ← hrest, List.takeWhile_append_dropWhile]⟩
    refine ⟨n.chars, ⟨hstart, .number n, fun ds hds hfinds => ?_⟩, by rw [hchars], ?_⟩
    · cases hfinds with
      | number m => exact hchars ▸ length_le_of_number m hds
    · rw [Lexeme.word, wordOf, hchars]

/-- Whether a lexeme stands for what the rules choose at the head of a text. -/
def Chooses (s : List Char) (l : Lexeme) : Prop :=
  ∃ r : Rule, ∃ cs, r.Selects s cs ∧ l.length = cs.length ∧ l.word = r.wordOf cs

theorem Yields.chooses {r : Rule} {l : Lexeme} (h : r.Yields s (some l))
    (hfails : ∀ q : Rule, q.place < r.place → q.Fails s) : Chooses s l := by
  obtain ⟨cs, hlongest, hl⟩ := h
  exact ⟨r, cs, ⟨hlongest, hfails⟩, hl⟩

/-- Whether a lexeme is what the rules choose, and there is none only if no rule finds anything, where
the rules before a place find nothing. -/
def Follows (place : Nat) (s : List Char) (o : Option Lexeme) : Prop :=
  (∀ q : Rule, q.place < place → q.Fails s) →
    (∀ l, o = some l → Chooses s l) ∧ (o = none → ∀ q : Rule, q.Fails s)

theorem follows_none (s : List Char) : Follows 5 s none := by
  intro hbefore
  refine ⟨by simp, fun _ q => hbefore q ?_⟩
  cases q <;> decide

theorem Yields.follows {r : Rule} {l : Lexeme} (h : r.Yields s (some l)) :
    Follows r.place s (some l) := by
  intro hbefore
  refine ⟨?_, by simp⟩
  rintro _ ⟨⟩
  exact h.chooses hbefore

/-- A rule is tried before those that come later. -/
theorem Yields.or {r : Rule} {o o' : Option Lexeme} (h : r.Yields s o)
    (hlater : Follows (r.place + 1) s o') : Follows r.place s (o.or o') := by
  cases o with
  | some l => exact h.follows
  | none =>
    intro hbefore
    apply hlater
    intro q hq
    rcases Nat.lt_succ_iff_lt_or_eq.1 hq with hlt | heq
    · exact hbefore q hlt
    · exact place_inj heq ▸ h

/-- A lexeme is what the rules choose, and there is none only if no rule finds anything. -/
theorem lexeme?_follows (s : List Char) :
    (∀ l, lexeme? s = some l → Chooses s l) ∧ (lexeme? s = none → ∀ r : Rule, r.Fails s) := by
  have hnumber : Follows number.place s (numberLexeme? s) := by
    simpa using (yields_number s).or (follows_none s)
  have hcell : Follows cell.place s ((cellLexeme? s).or (numberLexeme? s)) :=
    (yields_cell s).or hnumber
  have hsymbol : Follows comparison.place s
      ((symbolLexeme? s).or ((cellLexeme? s).or (numberLexeme? s))) := by
    rcases yields_symbol s with ⟨hyields, hsome⟩ | ⟨hfails, hyields⟩
    · obtain ⟨l, hl⟩ := Option.ne_none_iff_exists'.1 hsome
      rw [hl] at hyields ⊢
      exact hyields.follows
    · exact Yields.or (o := none) hfails (hyields.or hcell)
  have hword : Follows word.place s (lexeme? s) := (yields_word s).or hsymbol
  exact hword fun q hq => absurd hq (Nat.not_lt_zero _)

end Rule

/-! ## Tiles -/

/-- How a text that begins at a position is cut from left to right: into the tokens that the rules
choose, and the characters at which no rule finds anything. -/
inductive Tiles : Nat → List Char → List Token → List Char → Prop
  | nil {position : Nat} : Tiles position [] [] []
  | token {position : Nat} {r : Rule} {s cs rest strays : List Char} {ts : List Token}
    (hs : s = cs ++ rest) (h : r.Selects s cs)
    (hrest : Tiles (position + cs.length) rest ts strays) :
    Tiles position s (⟨(r.wordOf cs).kind, (r.wordOf cs).text, position⟩ :: ts) strays
  | stray {position : Nat} {c : Char} {s strays : List Char} {ts : List Token}
    (h : ∀ r : Rule, r.Fails (c :: s)) (hrest : Tiles (position + 1) s ts strays) :
    Tiles position (c :: s) ts (c :: strays)

theorem Rule.Selects.not_fails {r : Rule} (h : r.Selects s cs) : ¬ ∀ q : Rule, q.Fails s :=
  fun hfails => hfails r cs h.isPrefix h.finds

/-- A text is tiled in one way only. -/
theorem Tiles.unique {strays' : List Char} (h : Tiles position s ts strays)
    (h' : Tiles position s us strays') : us = ts ∧ strays' = strays := by
  induction h generalizing us strays' with
  | nil =>
    cases h' with
    | nil => exact ⟨rfl, rfl⟩
    | token hs h =>
      have hnil := (List.append_eq_nil_iff.1 hs.symm).1
      exact absurd hnil h.finds.ne_nil
  | token hs h _ ih =>
    cases h' with
    | nil => exact absurd (List.append_eq_nil_iff.1 hs.symm).1 h.finds.ne_nil
    | token hs' h' hrest =>
      obtain ⟨rfl, rfl⟩ := h.unique h'
      obtain rfl := List.append_cancel_left (hs.symm.trans hs')
      obtain ⟨rfl, rfl⟩ := ih hrest
      exact ⟨rfl, rfl⟩
    | stray hfails => exact absurd hfails h.not_fails
  | stray hfails _ ih =>
    cases h' with
    | token hs' h' => exact absurd hfails h'.not_fails
    | stray _ hrest =>
      obtain ⟨rfl, rfl⟩ := ih hrest
      exact ⟨rfl, rfl⟩

theorem tiles_piecesFrom (position covered : Nat) (s : List Char) :
    Tiles (position + covered) (s.drop covered)
      ((piecesFrom position covered s).filterMap Piece.token?)
      ((piecesFrom position covered s).filterMap Piece.stray?) := by
  fun_induction piecesFrom position covered s with
  | case1 => simpa using Tiles.nil
  | case2 position covered c s ih =>
    rwa [Nat.add_assoc, Nat.add_comm 1] at ih
  | case3 position c s l hl ih =>
    obtain ⟨r, cs, hselects, hlength, hword⟩ := (Rule.lexeme?_follows _).1 l hl
    obtain ⟨d, cs, rfl⟩ := List.exists_cons_of_ne_nil hselects.finds.ne_nil
    obtain ⟨rfl, rest, rfl⟩ := List.cons_prefix_cons.1 hselects.isPrefix
    have hcs : l.length - 1 = cs.length := by simp [hlength]
    have hposition : position + 1 + cs.length = position + (d :: cs).length := by
      simp only [List.length_cons]
      omega
    rw [hcs, List.drop_left, hposition] at ih
    have htiles := Tiles.token rfl hselects ih
    rw [← hword] at htiles
    simpa [hcs, List.filterMap_cons, Piece.token?, Piece.stray?, Lexeme.word] using htiles
  | case4 position c s hnone ih =>
    have htiles := Tiles.stray ((Rule.lexeme?_follows _).2 hnone) ih
    simpa [List.filterMap_cons, Piece.token?, Piece.stray?] using htiles

/-- A formula is cut into tiles. -/
theorem tiles_pieces (formula : String) :
    Tiles 0 (withoutSeparators formula) ((pieces formula).filterMap Piece.token?)
      ((pieces formula).filterMap Piece.stray?) :=
  tiles_piecesFrom 0 0 _

/-! ## Covered texts -/

/-- How many characters tokens take up. -/
def extent : List Token → Nat
  | [] => 0
  | t :: ts => t.text.length + extent ts

@[simp] theorem extent_nil : extent [] = 0 :=
  rfl

@[simp] theorem extent_cons (t : Token) (ts : List Token) :
    extent (t :: ts) = t.text.length + extent ts :=
  rfl

/-- The part of a text in the place of a token. -/
def Token.slice (t : Token) (s : List Char) : List Char :=
  (s.drop t.position.toNat).take t.text.length

/-- Whether tokens cover a text without gaps, each of them at its place and chosen there by the
rules. -/
structure IsTiling (s : List Char) (ts : List Token) : Prop where
  extent_eq : extent ts = s.length
  position_eq : ∀ (before : List Token) (t : Token) (after : List Token),
    ts = before ++ t :: after → t.position = extent before
  chosen : ∀ t ∈ ts, ∃ r : Rule, r.Selects (s.drop t.position.toNat) (t.slice s) ∧
    t.word = r.wordOf (t.slice s)

theorem Tiles.extent_eq (h : Tiles position s ts []) : extent ts = s.length := by
  generalize hnone : ([] : List Char) = strays at h
  induction h with
  | nil => rfl
  | token hs _ _ ih => simp [hs, ih hnone]
  | stray => cases hnone

theorem Tiles.position_eq (h : Tiles position s ts []) :
    ∀ (before : List Token) (t : Token) (after : List Token),
      ts = before ++ t :: after → t.position = position + extent before := by
  generalize hnone : ([] : List Char) = strays at h
  induction h with
  | nil => simp
  | @token position r _ cs _ _ _ hs _ _ ih =>
    intro before t after hts
    obtain - | ⟨u, before⟩ := before
    · obtain ⟨rfl, rfl⟩ := List.cons.inj hts
      simp
    · obtain ⟨rfl, rfl⟩ := List.cons.inj hts
      rw [ih hnone before t after rfl]
      simp
      omega
  | stray => cases hnone

theorem Tiles.chosen (h : Tiles position s ts []) {t : Token} (ht : t ∈ ts) :
    ∃ front back cs, ∃ r : Rule, s = front ++ back ∧ t.position = position + front.length ∧
      r.Selects back cs ∧ t.word = r.wordOf cs := by
  generalize hnone : ([] : List Char) = strays at h
  induction h with
  | nil => cases ht
  | @token position r s cs rest _ _ hs h _ ih =>
    rcases List.mem_cons.1 ht with rfl | ht
    · exact ⟨[], s, cs, r, rfl, by simp, h, rfl⟩
    · obtain ⟨front, back, ds, q, rfl, hposition, hq, hword⟩ := ih ht hnone
      refine ⟨cs ++ front, back, ds, q, by rw [hs, List.append_assoc], ?_, hq, hword⟩
      rw [hposition]
      simp
      omega
  | stray => cases hnone

theorem Tiles.isTiling (h : Tiles 0 s ts []) : IsTiling s ts where
  extent_eq := h.extent_eq
  position_eq before t after hts := by simpa using h.position_eq before t after hts
  chosen t ht := by
    obtain ⟨front, back, cs, r, rfl, hposition, hselects, hword⟩ := h.chosen ht
    have hfront : t.position.toNat = front.length := by simp [hposition]
    have hlength : t.text.length = cs.length := by
      rw [← r.length_text_wordOf cs, ← hword]
      rfl
    have hslice : t.slice (front ++ back) = cs := by
      rw [Token.slice, hfront, List.drop_left, hlength]
      exact (List.prefix_iff_eq_take.1 hselects.isPrefix).symm
    rw [hslice, hfront, List.drop_left]
    exact ⟨r, hselects, hword⟩

/-! ## Tokens -/

variable {formula : String}

/-- What is invalid are the stray characters. -/
theorem eq_strayCharacters_of_tokenize {e : Error} (h : tokenize formula = .error e)
    (he : e.category = .invalidCharacters) :
    (pieces formula).filterMap Piece.stray? ≠ [] ∧
      e = .strayCharacters (String.ofList ((pieces formula).filterMap Piece.stray?)) := by
  unfold tokenize at h
  split at h
  · obtain rfl := Except.error.inj h
    cases he
  dsimp only at h
  split at h
  next hstrays =>
    obtain rfl := Except.error.inj h
    exact ⟨by simpa using hstrays, rfl⟩
  next =>
    split at h
    · obtain rfl := Except.error.inj h
      cases he
    · cases h

theorem tokenize_of_stray (hcomma : ',' ∉ formula.toList)
    (h : (pieces formula).filterMap Piece.stray? ≠ []) :
    tokenize formula =
      .error (.strayCharacters (String.ofList ((pieces formula).filterMap Piece.stray?))) := by
  have hcontains : formula.toList.contains ',' = false := by
    rwa [← List.contains_iff_mem, Bool.not_eq_true] at hcomma
  rw [tokenize, hcontains]
  simp [h]

/-- A formula without a comma is tiled in exactly one way. If it has tokens, these are its tiles and
cover it. If characters are left out, they are reported, and nothing else is reported as invalid. -/
theorem tokenize_tiles (formula : String) (f : List Char) (hcomma : ',' ∉ formula.toList)
    (hf : f = formula.toList.filter (· ∉ [' ', '\t', '\r', '\n'])) :
    ∃ found left, Tiles 0 f found left ∧
      (∀ ts strays, Tiles 0 f ts strays → ts = found ∧ strays = left) ∧
      (∀ ts, tokenize formula = .ok ts → ts = found ∧ left = [] ∧ IsTiling f ts) ∧
      (∀ e, tokenize formula = .error e → e.category = .invalidCharacters →
        left ≠ [] ∧ e = .strayCharacters (String.ofList left)) ∧
      (left ≠ [] → tokenize formula = .error (.strayCharacters (String.ofList left))) := by
  obtain rfl : f = withoutSeparators formula := by rw [hf, withoutSeparators_eq]
  have htiles := tiles_pieces formula
  refine ⟨_, _, htiles, fun ts strays h => htiles.unique h, fun ts h => ?_,
    fun e h he => eq_strayCharacters_of_tokenize h he, tokenize_of_stray hcomma⟩
  have hnone := stray_eq_nil_of_tokenize h
  obtain ⟨rfl, -⟩ := eq_of_tokenize h
  exact ⟨rfl, hnone, (hnone ▸ htiles).isTiling⟩

/-- Words that follow each other directly, a cell cut off from a number by one of them, and a comparison
are tiles of a formula. A point with no digit before it and a letter with none behind it are left out. -/
theorem tokenize_tiles_adjoining :
    (∃ ts, tokenize "iNc (A1mod1.5 )<>b2" = .ok ts ∧
      ts.map Token.word = [⟨.function, "inc"⟩, ⟨.openParen, "("⟩, ⟨.cell, "A1"⟩, ⟨.operator, "mod"⟩,
        ⟨.number, "1.5"⟩, ⟨.closeParen, ")"⟩, ⟨.operator, "<>"⟩, ⟨.cell, "B2"⟩] ∧
      IsTiling "iNc(A1mod1.5)<>b2".toList ts) ∧
    ∃ found, Tiles 0 "A1+.5&modb".toList found ['.', '&', 'b'] ∧
      tokenize "A1 +.5 & modb" = .error (.strayCharacters ".&b") := by
  refine ⟨?_, ?_⟩
  · have htokens : tokenize "iNc (A1mod1.5 )<>b2" =
        .ok [⟨.function, "inc", 0⟩, ⟨.openParen, "(", 3⟩, ⟨.cell, "A1", 4⟩, ⟨.operator, "mod", 6⟩,
          ⟨.number, "1.5", 9⟩, ⟨.closeParen, ")", 12⟩, ⟨.operator, "<>", 13⟩, ⟨.cell, "B2", 15⟩] := by
      decide +kernel
    obtain ⟨_, _, -, -, hok, -⟩ := tokenize_tiles "iNc (A1mod1.5 )<>b2"
      "iNc(A1mod1.5)<>b2".toList (by decide) (by decide)
    exact ⟨_, htokens, rfl, (hok _ htokens).2.2⟩
  · have hstray : tokenize "A1 +.5 & modb" = .error (.strayCharacters ".&b") := by decide +kernel
    obtain ⟨found, left, htiles, -, -, herror, -⟩ := tokenize_tiles "A1 +.5 & modb"
      "A1+.5&modb".toList (by decide) (by decide)
    obtain ⟨-, hleft⟩ := herror _ hstray rfl
    obtain rfl : left = ['.', '&', 'b'] :=
      (String.ofList_injective (Error.strayCharacters.inj hleft)).symm
    exact ⟨found, htiles, hstray⟩

end Spreadsheet
