import Spreadsheet.Proofs.Decimal.Literal
import Spreadsheet.Proofs.Formula.Acceptance
import Spreadsheet.Proofs.Formula.LookupOrder

/-!
# The equals sign of an expression

An equals sign at the head of an expression makes no difference, unless the expression is a literal.
A literal is a number whatever it looks like; behind an equals sign it is read as a formula, and there
only digits with places are a number: a sign is an operator without an operand before it, an exponent
is a cell or stray, and so is a point without digits on both sides. Of the blanks around a literal,
formulas know but the four that are separators.

## Main definitions

* `IsPlainNumber` — the literals that formulas read as numbers.

## Main statements

* `evaluate_of_equals` — a text that begins with an equals sign is evaluated as a formula.
* `exists_cell_of_scans` — what a point or an exponent is read as.
* `exists_chars_of_scans` — the numerals that are read as one number.
* `evaluate_equals_iff` — where the equals sign makes no difference.
* `evaluate_equals_signed` — a literal that is no formula.
-/

namespace Spreadsheet

variable {text expression : String} {body s front back whole point exponent : List Char} {d : Decimal}
  {ws : List Word} {w : Word} {resolve : String → Traced Value}

/-! ## Formulas as expressions -/

theorem postorder_of_comma {formula : String} (h : ',' ∈ formula.toList) :
    postorder formula = .error .commaInFormula := by
  have hcontains : formula.toList.contains ',' = true := List.contains_iff_mem.2 h
  rw [postorder, tokenize, if_pos hcontains]
  rfl

theorem withoutEquals_eq (h : text.toList = '=' :: body) : withoutEquals text = String.ofList body := by
  unfold withoutEquals
  rw [h]
  rfl

/-- A text that begins with an equals sign has the value of the formula that follows. -/
theorem evaluate_of_equals (resolve : String → Traced Value) (h : text.toList = '=' :: body) :
    evaluate resolve text = (do
      let tokens ← postorder (String.ofList body)
      Machine.run resolve tokens) := by
  have hblank : Text.isBlankText text = false := by
    simp [Text.isBlankText, h, Text.isBlank]
  unfold evaluate
  rw [hblank, if_neg (by simp), Decimal.ofLiteral?_of_equals h]
  split
  next hcomma =>
    have hbody : ',' ∈ (String.ofList body).toList := by
      simpa [h] using hcomma
    rw [postorder_of_comma hbody]
    rfl
  next =>
    rw [withoutEquals_eq h]

/-! ## Literals that are numbers of formulas -/

/-- A number as formulas spell it, between separators. -/
def IsPlainNumber (expression : String) : Prop :=
  ∃ (n : NumberWord) (front back : List Char), expression.toList = front ++ n.chars ++ back ∧
    ∀ c ∈ front ++ back, isSeparator c

theorem isBlank_of_isSeparator {c : Char} (h : isSeparator c) : Text.isBlank c := by
  simp only [isSeparator, Bool.or_eq_true, beq_iff_eq] at h
  obtain ((rfl | rfl) | rfl) | rfl := h <;> decide

theorem NumberWord.isBlank_eq_false (n : NumberWord) :
    ∀ c ∈ n.chars, Text.isBlank c = false := fun c hc =>
  Numeral.of_isPlain (P := fun c => Text.isBlank c = false) (Machine.isPlain_of_mem_chars hc)
    (by decide) (by decide)

/-- A number between blanks is the literal of its value, if it is one. -/
theorem NumberWord.value_of_ofLiteral? {n : NumberWord} (hblank : ∀ c ∈ front ++ back, Text.isBlank c)
    (htext : text.toList = front ++ n.chars ++ back) (h : Decimal.ofLiteral? text = some d) :
    n.value = d := by
  have hne : n.chars ≠ [] := fun hnil => n.whole_ne_nil (List.append_eq_nil_iff.1 hnil).1
  rw [Decimal.ofLiteral?, htext, Text.trimChars_append hblank n.isBlank_eq_false hne, NumberWord.chars,
    Numeral.parse?_digits n.whole_ne_nil n.isDigit_whole n.isDigit_places] at h
  obtain ⟨hd, hrange⟩ := Option.filter_eq_some_iff.1 h
  obtain rfl := Option.some.inj hd
  refine Decimal.raiseZero_of_isRepresentable fun hzero => ?_
  rwa [if_pos hzero] at hrange

theorem withoutSeparators_append (htext : text.toList = front ++ s ++ back)
    (hseparator : ∀ c ∈ front ++ back, isSeparator c) (hs : ∀ c ∈ s, Text.isBlank c = false) :
    withoutSeparators text = s := by
  obtain ⟨hfront, hback⟩ := List.forall_mem_append.1 hseparator
  have hnone : ∀ l : List Char, (∀ c ∈ l, isSeparator c) → l.filter (!isSeparator ·) = [] :=
    fun l hl => List.filter_eq_nil_iff.2 fun c hc => by simp [hl c hc]
  have hall : s.filter (!isSeparator ·) = s := List.filter_eq_self.2 fun c hc => by
    rw [Bool.not_eq_true', Bool.eq_false_iff]
    exact fun hc' => Bool.false_ne_true ((hs c hc).symm.trans (isBlank_of_isSeparator hc'))
  rw [withoutSeparators, htext, List.filter_append, List.filter_append, hnone front hfront,
    hnone back hback, hall, List.nil_append, List.append_nil]

/-- The formula of a plain number has the value of the literal. -/
theorem IsPlainNumber.eval_eq (h : IsPlainNumber expression)
    (hliteral : Decimal.ofLiteral? expression = some d) :
    (do
      let tokens ← postorder expression
      Machine.run resolve tokens : Traced Value) = pure (.decimal d) := by
  obtain ⟨n, front, back, htext, hseparator⟩ := h
  have hvalue : n.value = d :=
    n.value_of_ofLiteral? (fun c hc => isBlank_of_isSeparator (hseparator c hc)) htext hliteral
  have hrenders : (Phrase.number n).Renders expression := by
    unfold Phrase.Renders
    rw [← withoutSeparators_eq, withoutSeparators_append htext hseparator n.isBlank_eq_false]
    rfl
  obtain ⟨ts, hts, hwords⟩ := tokenize_of_renders hrenders
  obtain ⟨t, rfl, ht⟩ := List.map_eq_singleton_iff.1 hwords
  have hkind : t.kind = .number := (Token.kind_eq_of_word ht).1
  have hpost : postorder expression = .ok [t] := by
    rw [postorder, hts]
    show postorderFrom [] [t] = _
    rw [postorderFrom_operand (.inl hkind)]
    rfl
  have hrun : Machine.run resolve [t] = (Expr.number n).eval resolve :=
    Machine.run_postorder hwords
  rw [hpost, ← hvalue]
  exact hrun

/-! ## Numerals as formulas -/

/-- A point or an exponent at the head is no number, so it can only be a cell. -/
theorem exists_cell_of_scans {c : Char} (hc : c = '.' ∨ c = 'e' ∨ c = 'E')
    (h : Scans (c :: s) ws) : ∃ w ∈ ws, w.kind = .cell := by
  obtain ⟨l, rest, hl, rfl, -⟩ := h.exists_cons (List.cons_ne_nil c s)
  obtain ⟨cs, tail, hcs, -, hspells⟩ := exists_spelling_of_lexeme? hl
  have hhead : cs.head? = some c := by
    obtain ⟨x, xs, rfl⟩ := List.exists_cons_of_ne_nil hspells.ne_nil
    exact congrArg some (List.cons.inj hcs).1.symm
  have hsymbol : ∀ symbol : List Char, cs.map Char.toLower = symbol →
      symbol.head? = some c.toLower := by
    rintro _ rfl
    rw [List.head?_map, hhead]
    rfl
  generalize hw : l.word = w at hspells
  cases hspells with
  | cell a => exact ⟨_, List.mem_cons_self, rfl⟩
  | number n =>
    have hdigit : c.isDigit := by
      obtain ⟨x, xs, hwhole⟩ := List.exists_cons_of_ne_nil n.whole_ne_nil
      obtain rfl : x = c := by simpa [NumberWord.chars, hwhole] using hhead
      exact n.isDigit_whole x (by simp [hwhole])
    obtain rfl | rfl | rfl := hc <;> simp at hdigit
  | operator op h =>
    obtain rfl | rfl | rfl := hc <;> cases op <;> exact absurd (hsymbol _ h) (by decide)
  | function f h =>
    obtain rfl | rfl | rfl := hc <;> cases f <;> exact absurd (hsymbol _ h) (by decide)
  | openParen | closeParen =>
    obtain rfl | rfl | rfl := hc <;> exact absurd hhead (by decide)

/-- Behind the digits of a numeral stands nothing or the head of what is no number. -/
theorem head_of_parts (hpoint : Numeral.IsPoint point) (hexponent : Numeral.IsExponent exponent) :
    point ++ exponent = [] ∨
      ∃ c s, point ++ exponent = c :: s ∧ (c = '.' ∨ c = 'e' ∨ c = 'E') := by
  obtain rfl | ⟨places, rfl, -⟩ := hpoint
  · obtain rfl | ⟨c, sign, digits, rfl, hc, -⟩ := hexponent
    · exact .inl rfl
    · exact .inr ⟨c, sign ++ digits, rfl, .inr hc⟩
  · exact .inr ⟨'.', places ++ exponent, rfl, .inl rfl⟩

/-- Of what stands behind the digits, a number takes the places. -/
theorem fraction_of_parts (hpoint : Numeral.IsPoint point) (hexponent : Numeral.IsExponent exponent) :
    (∃ places, (∀ c ∈ places, c.isDigit) ∧
        point ++ exponent = (if places = [] then [] else '.' :: places) ∧
        fraction (point ++ exponent) = point ++ exponent) ∨
      ∃ c s, (point ++ exponent).drop (fraction (point ++ exponent)).length = c :: s ∧
        (c = '.' ∨ c = 'e' ∨ c = 'E') := by
  have hends : EndsOperand exponent := by
    obtain rfl | ⟨c, sign, digits, rfl, hc, -⟩ := hexponent
    · simp [EndsOperand]
    · obtain rfl | rfl := hc <;> simp [EndsOperand]
  have hempty : fraction exponent = [] :=
    fraction_append (show ∀ c ∈ ([] : List Char), c.isDigit by simp) hends
  obtain rfl | ⟨places, rfl, hplaces⟩ := hpoint
  · rw [List.nil_append, hempty]
    obtain rfl | ⟨c, sign, digits, rfl, hc, -⟩ := hexponent
    · exact .inl ⟨[], by simp⟩
    · exact .inr ⟨c, sign ++ digits, rfl, .inr hc⟩
  · by_cases hnone : places = []
    · subst hnone
      have htake : exponent.takeWhile Char.isDigit = [] :=
        takeWhile_append_of_stop (l := []) (by simp) fun c hc => (hends c hc).1
      exact .inr ⟨'.', exponent, by simp [fraction, htake], .inl rfl⟩
    · have htaken : fraction ('.' :: places ++ exponent) = '.' :: places := by
        simpa [hnone] using fraction_append hplaces hends
      rw [htaken, List.drop_left]
      obtain rfl | ⟨c, sign, digits, rfl, hc, -⟩ := hexponent
      · exact .inl ⟨places, hplaces, by simp [hnone]⟩
      · exact .inr ⟨c, sign ++ digits, rfl, .inr hc⟩

/-- Of the numerals without a sign that are read without cells, the plain ones have one operand too
many, and no others. -/
theorem exists_chars_of_scans (hwhole : ∀ c ∈ whole, c.isDigit) (hpoint : Numeral.IsPoint point)
    (hexponent : Numeral.IsExponent exponent) (h : Scans (whole ++ (point ++ exponent)) ws)
    (hcell : ∀ w ∈ ws, w.kind ≠ .cell) :
    surplus ws ≤ 1 ∧
      (surplus ws = 1 → ∃ n : NumberWord, n.chars = whole ++ (point ++ exponent)) := by
  have hnone : ∀ {c s us}, (c = '.' ∨ c = 'e' ∨ c = 'E') → (∀ w ∈ us, w.kind ≠ .cell) →
      ¬ Scans (c :: s) us := fun hc hus hscans => by
    obtain ⟨w, hw, hkind⟩ := exists_cell_of_scans hc hscans
    exact hus w hw hkind
  by_cases hne : whole = []
  · subst hne
    obtain hnil | ⟨c, s, hs, hc⟩ := head_of_parts hpoint hexponent
    · rw [List.nil_append, hnil] at h
      simp [h.eq_nil]
    · rw [List.nil_append, hs] at h
      exact absurd h (hnone hc hcell)
  · have hstop : ∀ c ∈ (point ++ exponent).head?, c.isDigit = false := by
      obtain hnil | ⟨c, s, hs, hc⟩ := head_of_parts hpoint hexponent
      · simp [hnil]
      · rw [hs]
        rintro d hd
        obtain rfl : d = c := by simpa using hd.symm
        obtain rfl | rfl | rfl := hc <;> rfl
    obtain ⟨l, us, hl, rfl, hus⟩ := h.exists_cons (by simp [hne])
    obtain ⟨hfirst, hcells⟩ := List.forall_mem_cons.1 hcell
    obtain rfl := Option.some.inj ((lexeme?_of_digits hne hwhole hstop).symm.trans hl)
    have hdrop : (whole ++ (point ++ exponent)).drop
        (whole ++ fraction (point ++ exponent)).length =
          (point ++ exponent).drop (fraction (point ++ exponent)).length := by
      rw [List.length_append, List.drop_length_add_append]
    rw [hdrop] at hus
    obtain ⟨places, hplaces, hpart, htaken⟩ | ⟨c, s, hs, hc⟩ := fraction_of_parts hpoint hexponent
    · rw [htaken, List.drop_length] at hus
      obtain rfl := hus.eq_nil
      refine ⟨by simp [Lexeme.word, Token.Kind.weight], fun _ => ?_⟩
      exact ⟨⟨whole, places, hne, hwhole, hplaces⟩, by rw [hpart]; rfl⟩
    · rw [hs] at hus
      exact absurd hus (hnone hc hcells)

/-- Of the numerals that are read without cells, the plain ones have one operand too many. -/
theorem exists_chars_of_parse? (hparse : Numeral.parse? s = some d) (h : Scans s ws)
    (hcell : ∀ w ∈ ws, w.kind ≠ .cell) (hone : surplus ws = 1) :
    ∃ n : NumberWord, n.chars = s := by
  have hpart := Numeral.isPart_of_parse? hparse
  obtain ⟨sign, whole, point, exponent, rfl, hsign, hwhole, hpoint, hexponent⟩ :=
    Numeral.exists_parts hparse
  -- a sign is an operator, so what follows it would have to be two operands
  have hoperator : ∀ c ∈ ['+', '-'], sign ≠ [c] := by
    rintro c hc rfl
    have hends : EndsOperator (whole ++ (point ++ exponent)) := fun x hx => by
      have hx : Numeral.IsPart x := hpart x (List.mem_append_right _ (List.mem_of_mem_head? hx))
      constructor <;> rintro rfl <;> simp [Numeral.IsPart] at hx
    have hlower : [c].map Char.toLower = [c] := by
      simp only [List.mem_cons, List.not_mem_nil, or_false] at hc
      obtain rfl | rfl := hc <;> rfl
    have hhead : lexeme? ([c] ++ (whole ++ (point ++ exponent))) = some ⟨.operator, [c], 1⟩ :=
      lexeme?_single ((show ['+', '-'] ⊆ ['+', '-', '*', '/', '=', '<', '>'] by simp) hc) hends hlower
    obtain ⟨l, us, hl, rfl, hus⟩ := h.exists_cons (List.cons_ne_nil _ _)
    obtain rfl := Option.some.inj (hhead.symm.trans hl)
    obtain ⟨hle, -⟩ := exists_chars_of_scans hwhole hpoint hexponent hus
      (List.forall_mem_cons.1 hcell).2
    rw [surplus_cons] at hone
    simp only [Lexeme.word, Token.Kind.weight] at hone
    omega
  obtain rfl | rfl | rfl := hsign
  · exact (exists_chars_of_scans hwhole hpoint hexponent h hcell).2 hone
  · exact absurd rfl (hoperator '+' (by simp))
  · exact absurd rfl (hoperator '-' (by simp))

/-! ## Formulas of literals -/

/-- Words have no blanks. -/
theorem Spells.isBlank_eq_false {cs : List Char} (h : Spells w cs) :
    ∀ c ∈ cs, Text.isBlank c = false := by
  have hnone : ∀ cs : List Char, cs.any Text.isBlank = false → ∀ c ∈ cs, Text.isBlank c = false :=
    fun cs h c hc => by simpa using List.any_eq_false.1 h c hc
  have hlower : ∀ symbol : List Char, symbol.any Text.isBlank = false →
      cs.map Char.toLower = symbol → ∀ c ∈ cs, Text.isBlank c = false := by
    rintro symbol hsymbol rfl c hc
    rw [← Text.isBlank_toLower]
    exact hnone _ hsymbol _ (List.mem_map_of_mem hc)
  cases h with
  | number n => exact n.isBlank_eq_false
  | cell a =>
    intro c hc
    obtain hc | hc := List.mem_append.1 hc
    · exact Text.isBlank_of_isAlpha (a.isAlpha_letters c hc)
    · exact Text.isBlank_of_isDigit (a.isDigit_digits c hc)
  | operator op h => exact hlower _ (by cases op <;> decide) h
  | function f h => exact hlower _ (by cases f <;> decide) h
  | openParen | closeParen => exact hnone _ (by decide)

/-- A literal whose formula has a value without looking up a cell is a plain number. -/
theorem isPlainNumber_of_value (hliteral : Decimal.ofLiteral? expression = some d) {ts : List Token}
    (hts : tokenize expression = .ok ts) (hcell : ∀ w ∈ ts.map Token.word, w.kind ≠ .cell)
    (hone : surplus (ts.map Token.word) = 1) : IsPlainNumber expression := by
  have hscans := scans_of_tokenize hts
  obtain ⟨front, s, back, htext, hblank, hparse⟩ := Decimal.exists_numeral_of_ofLiteral? hliteral
  have hnone : ∀ c ∈ withoutSeparators expression, Text.isBlank c = false :=
    hscans.forall_mem fun w _ cs hspells => hspells.isBlank_eq_false
  have hseparator : ∀ c ∈ front ++ back, isSeparator c := fun c hc => by
    by_contra hkept
    have htext' : c ∈ expression.toList := by
      rw [htext]
      exact (List.mem_append.1 hc).elim (by simp +contextual) (by simp +contextual)
    have hmem : c ∈ withoutSeparators expression := List.mem_filter.2 ⟨htext', by simpa using hkept⟩
    exact Bool.false_ne_true ((hnone c hmem).symm.trans (hblank c hc))
  rw [withoutSeparators_append htext hseparator
    fun c hc => (Numeral.isPart_of_parse? hparse c hc).isBlank_eq_false] at hscans
  obtain ⟨n, hn⟩ := exists_chars_of_parse? hparse hscans hcell hone
  exact ⟨n, front, back, hn ▸ htext, hseparator⟩

/-- If the formula of a literal has the value of the literal and looks up nothing, then the literal is
plain. -/
theorem isPlainNumber_of_eval_eq {r : String → Except Error Value}
    (hliteral : Decimal.ofLiteral? expression = some d)
    (h : (do
      let tokens ← postorder expression
      Machine.run (Traced.recording r) tokens : Traced Value) = pure (.decimal d)) :
    IsPlainNumber expression := by
  have hvalue := congrArg Traced.outcome h
  obtain ⟨ts, hts, -, hone⟩ := exists_tokens_of_value hvalue
  obtain ⟨out, hout, -⟩ := Traced.bind_outcome_eq_ok.1 hvalue
  have hpostorder : postorder expression = .ok out := hout
  obtain ⟨us, hus, hpost⟩ := exists_tokens_of_postorder hpostorder
  obtain rfl := Except.ok.inj (hts.symm.trans hus)
  rw [hpostorder] at h
  have hrun : Machine.run (Traced.recording r) out = pure (.decimal d) := h
  have hnames : cellNames ts = [] := by
    rw [← cellNames_toPostorder hpost, ← Machine.lookups_run_of_ok (congrArg Traced.outcome hrun),
      hrun]
    rfl
  refine isPlainNumber_of_value hliteral hts (fun w hw hkind => ?_) hone
  obtain ⟨t, ht, rfl⟩ := List.mem_map.1 hw
  have hmem : t.text ∈ cellNames ts :=
    List.mem_map_of_mem (List.mem_filter.2 ⟨ht, decide_eq_true hkind⟩)
  rw [hnames] at hmem
  cases hmem

/-! ## With and without the equals sign -/

theorem withoutEquals_eq_self (h : text.toList.head? ≠ some '=') : withoutEquals text = text := by
  unfold withoutEquals
  split
  next rest htext => exact absurd (by rw [htext]; rfl) h
  next => rfl

theorem comma_notMem_of_ofLiteral? (h : Decimal.ofLiteral? text = some d) : ',' ∉ text.toList := by
  obtain ⟨front, s, back, htext, hblank, hparse⟩ := Decimal.exists_numeral_of_ofLiteral? h
  have hblank' : ',' ∉ front ++ back := fun hmem => absurd (hblank _ hmem) (by decide)
  have hpart : ',' ∉ s := fun hmem => by
    simpa [Numeral.IsPart] using Numeral.isPart_of_parse? hparse _ hmem
  rw [htext, List.append_assoc]
  simp only [List.mem_append, not_or] at hblank' ⊢
  exact ⟨hblank'.1, hpart, hblank'.2⟩

/-- A literal is its own value. -/
theorem evaluate_of_ofLiteral? (resolve : String → Traced Value)
    (hblank : Text.isBlankText text = false) (h : Decimal.ofLiteral? text = some d) :
    evaluate resolve text = pure (.decimal d) := by
  have hcomma : text.toList.contains ',' = false := by
    simpa using comma_notMem_of_ofLiteral? h
  rw [evaluate, hblank, hcomma, h]
  rfl

/-- What is neither blank nor a literal is evaluated as a formula. -/
theorem evaluate_of_not_literal (resolve : String → Traced Value)
    (hblank : Text.isBlankText text = false) (hequals : text.toList.head? ≠ some '=')
    (h : Decimal.ofLiteral? text = none) :
    evaluate resolve text = (do
      let tokens ← postorder text
      Machine.run resolve tokens) := by
  rw [evaluate, hblank, h, withoutEquals_eq_self hequals, if_neg Bool.false_ne_true]
  split
  next hcomma =>
    rw [postorder_of_comma (List.contains_iff_mem.1 hcomma)]
    rfl
  next => rfl

open Traced (recording)

/-- An expression that is not blank and has no equals sign at its head has the same value or error, and
looks up the same cells, with an equals sign as without, unless it is a literal that is not plain. A
literal that is not plain never has the same value and lookups. -/
theorem evaluate_equals_iff (r : String → Except Error Value) (expression : String)
    (hblank : Text.isBlankText expression = false) (hequals : expression.toList.head? ≠ some '=') :
    evaluate (recording r) ("=" ++ expression) = evaluate (recording r) expression ↔
      ∀ d, Decimal.ofLiteral? expression = some d → IsPlainNumber expression := by
  have hformula : evaluate (recording r) ("=" ++ expression) = (do
      let tokens ← postorder expression
      Machine.run (recording r) tokens) := by
    have htext : ("=" ++ expression).toList = '=' :: expression.toList := by simp
    rw [evaluate_of_equals _ htext, String.ofList_toList]
  rw [hformula]
  cases hliteral : Decimal.ofLiteral? expression with
  | none => simp [evaluate_of_not_literal _ hblank hequals hliteral]
  | some d =>
    rw [evaluate_of_ofLiteral? _ hblank hliteral]
    exact ⟨fun h _ _ => isPlainNumber_of_eval_eq hliteral h,
      fun hplain => (hplain d rfl).eval_eq hliteral⟩

/-- A sum over a cell, and a number with a blank before it and a tab behind it. -/
theorem evaluate_equals_iff_plain :
    let resolve := recording fun _ => .ok (.decimal (.ofNat 2))
    evaluate resolve ("=" ++ "b1 + 1") = evaluate resolve "b1 + 1" ∧
      evaluate resolve ("=" ++ " 2.50\t") = evaluate resolve " 2.50\t" ∧
      (evaluate resolve " 2.50\t").outcome = .ok (.decimal ⟨false, 250, -2⟩) := by
  intro resolve
  have hsum : Decimal.ofLiteral? "b1 + 1" = none := by decide +kernel
  have hplain : IsPlainNumber " 2.50\t" :=
    ⟨⟨['2'], ['5', '0'], by simp, by simp, by simp⟩, [' '], ['\t'], rfl,
      List.all_eq_true.1 (by decide)⟩
  refine ⟨?_, ?_, by decide +kernel⟩
  · refine (evaluate_equals_iff _ "b1 + 1" (by decide +kernel) (by decide)).2 fun d hd => ?_
    cases hsum.symm.trans hd
  · exact (evaluate_equals_iff _ " 2.50\t" (by decide +kernel) (by decide)).2 fun _ _ => hplain

/-- A negative number has no value behind an equals sign, and one with an exponent has another one if
the cell that its exponent names has a value. -/
theorem evaluate_equals_signed :
    let resolve := recording fun _ => .ok (.decimal (.ofNat 2))
    Text.isBlankText "-5" = false ∧ "-5".toList.head? ≠ some '=' ∧
      (evaluate resolve "-5").outcome = .ok (.decimal ⟨true, 5, 0⟩) ∧
      (evaluate resolve ("=" ++ "-5")).outcome = .error (.missingOperands "-") ∧
      (evaluate resolve "-5e3").outcome = .ok (.decimal ⟨true, 5, 3⟩) ∧
      (evaluate resolve ("=" ++ "-5e3")).outcome = .ok (.decimal ⟨false, 3, 0⟩) ∧
      (evaluate resolve ("=" ++ "-5e3")).lookups = ["E3"] := by
  decide +kernel

end Spreadsheet
