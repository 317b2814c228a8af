import Spreadsheet.Proofs.Formula.Lexeme

/-!
# Reading the words of a phrase

Once blanks are gone, a word ends where the next one begins only because of what the next one begins
with: a number or cell is followed by an operator, a parenthesis or nothing, an operator by an
operand or a parenthesis. Reading the text of a phrase hence gives the words of the phrase.

## Main statements

* `Reads.append` — texts that are read one after the other.
* `reads_phrase` — the words of a phrase.
* `tokenize_of_renders` — the tokens of a text that renders a phrase.
-/

namespace Spreadsheet

variable {cs ds rest : List Char}

/-! ## Texts that are read one after the other -/

/-- Whether `cs` reads as the words `ws` when `rest` follows, wherever it stands. -/
def Reads (cs rest : List Char) (ws : List Word) : Prop :=
  ∀ position, ∃ ts : List Token, ts.map Token.word = ws ∧
    piecesFrom position 0 (cs ++ rest) =
      ts.map Piece.token ++ piecesFrom (position + cs.length) 0 rest

theorem Reads.append {ws vs : List Word} (h : Reads cs (ds ++ rest) ws) (h' : Reads ds rest vs) :
    Reads (cs ++ ds) rest (ws ++ vs) := by
  intro position
  obtain ⟨ts, hts, hpieces⟩ := h position
  obtain ⟨us, hus, hpieces'⟩ := h' (position + cs.length)
  refine ⟨ts ++ us, by rw [List.map_append, hts, hus], ?_⟩
  rw [List.append_assoc, hpieces, hpieces', List.map_append, List.append_assoc,
    List.length_append, Nat.add_assoc]

theorem piecesFrom_covered (position : Nat) (cs rest : List Char) :
    piecesFrom position cs.length (cs ++ rest) = piecesFrom (position + cs.length) 0 rest := by
  induction cs generalizing position with
  | nil => rfl
  | cons c cs ih =>
    rw [List.length_cons, List.cons_append, piecesFrom, ih]
    congr 1
    omega

theorem reads_of_lexeme? {kind : Token.Kind} {text : List Char} (hcs : cs ≠ [])
    (h : lexeme? (cs ++ rest) = some ⟨kind, text, cs.length⟩) :
    Reads cs rest [⟨kind, String.ofList text⟩] := by
  intro position
  obtain ⟨c, cs, rfl⟩ := List.exists_cons_of_ne_nil hcs
  refine ⟨[⟨kind, String.ofList text, position⟩], rfl, ?_⟩
  rw [List.cons_append] at h ⊢
  rw [piecesFrom, h]
  simp only [List.length_cons, Nat.add_sub_cancel, piecesFrom_covered, List.map_cons, List.map_nil,
    List.singleton_append]
  congr 2
  omega

/-! ## Phrases -/

variable {level : Level}

/-- Whether a character may begin a phrase. -/
def beginsPhrase (c : Char) : Bool :=
  c.isAlpha || c.isDigit || c == '('

theorem exists_spelling_cons (e : Phrase level) :
    ∃ c tail, e.spelling = c :: tail ∧ beginsPhrase c := by
  induction e with
  | number n =>
    obtain ⟨c, tail, hwhole⟩ := List.exists_cons_of_ne_nil n.whole_ne_nil
    have hc := n.isDigit_whole c (by simp [hwhole])
    exact ⟨c, _, by rw [Phrase.spelling, NumberWord.chars, hwhole]; rfl, by simp [beginsPhrase, hc]⟩
  | cell w =>
    obtain ⟨c, tail, hletters⟩ := List.exists_cons_of_ne_nil w.letters_ne_nil
    have hc := w.isAlpha_letters c (by simp [hletters])
    exact ⟨c, _, by rw [Phrase.spelling, CellWord.chars, hletters]; rfl, by simp [beginsPhrase, hc]⟩
  | group e ih => exact ⟨'(', _, rfl, rfl⟩
  | call f e ih =>
    cases f with
    | inc => exact ⟨'i', _, rfl, rfl⟩
    | dec => exact ⟨'d', _, rfl, rfl⟩
  | binary op l r ihl ihr =>
    obtain ⟨c, tail, hl, hc⟩ := ihl
    exact ⟨c, _, by rw [Phrase.spelling, hl]; rfl, hc⟩
  | tighter e ih => exact ih

theorem endsOperator_of_spelling (e : Phrase level)
    (h : cs.map Char.toLower = e.spelling.map Char.toLower) : EndsOperator (cs ++ rest) := by
  obtain ⟨x, tail, hspelling, hx⟩ := exists_spelling_cons e
  rw [hspelling] at h
  obtain ⟨c, cs, rfl, hc, -⟩ := List.map_eq_cons_iff.1 h
  intro d hd
  obtain rfl : d = c := by simpa using hd.symm
  refine ⟨?_, ?_⟩ <;> rintro rfl
  · obtain rfl := eq_of_toLower_eq (d := '>') rfl hc.symm
    exact absurd hx (by decide)
  · obtain rfl := eq_of_toLower_eq (d := '=') rfl hc.symm
    exact absurd hx (by decide)

theorem endsOperand_of_operator (op : BinaryOperator)
    (h : cs.map Char.toLower = op.symbol.toList) : EndsOperand (cs ++ rest) := by
  have hsymbol : ∀ c ∈ op.symbol.toList, c.isDigit = false ∧ c ≠ '.' := by
    cases op <;> simp [BinaryOperator.symbol]
  obtain - | ⟨c, cs⟩ := cs
  · cases op <;> simp [BinaryOperator.symbol] at h
  · intro d hd
    obtain rfl : d = c := by simpa using hd.symm
    have hlower := hsymbol d.toLower (by simp [← h])
    refine ⟨Bool.eq_false_iff.2 fun hdigit => ?_, ?_⟩
    · have := of_isDigit (P := fun c => c.toLower.isDigit = true) hdigit (by decide)
      simp [this] at hlower
    · rintro rfl
      exact hlower.2 rfl

theorem NumberWord.isAlpha_of_mem_chars {n : NumberWord} {c : Char} (h : c ∈ n.chars) :
    c.isAlpha = false := by
  unfold chars at h
  obtain h | h := List.mem_append.1 h
  · exact isAlpha_of_isDigit (n.isDigit_whole c h)
  · split at h
    · simp at h
    · obtain rfl | h := List.mem_cons.1 h
      · rfl
      · exact isAlpha_of_isDigit (n.isDigit_places c h)

/-- A cell in another case is a cell of the same name. -/
theorem CellWord.exists_of_map_toLower (w : CellWord)
    (h : cs.map Char.toLower = w.chars.map Char.toLower) :
    ∃ v : CellWord, v.chars = cs ∧ v.name = w.name := by
  have hsplit : cs.map Char.toLower = w.letters.map Char.toLower ++ w.digits.map Char.toLower := by
    rw [h, chars, List.map_append]
  obtain ⟨ls, ds, rfl, hls, hds⟩ := List.map_eq_append_iff.1 hsplit
  have hdigits : ∀ c ∈ w.digits, c.isAlpha = false := fun c hc =>
    isAlpha_of_isDigit (w.isDigit_digits c hc)
  rw [map_toLower_eq_self hdigits] at hds
  obtain rfl := eq_of_map_toLower_eq hdigits hds
  have halpha : ∀ c ∈ ls, c.isAlpha := by
    intro c hc
    have hmem : c.toLower ∈ w.letters.map Char.toLower := hls ▸ List.mem_map_of_mem hc
    obtain ⟨d, hd, hdc⟩ := List.mem_map.1 hmem
    rw [← isAlpha_toLower, ← hdc, isAlpha_toLower]
    exact w.isAlpha_letters d hd
  have hne : ls ≠ [] := by
    rintro rfl
    exact w.letters_ne_nil (List.map_eq_nil_iff.1 hls.symm)
  refine ⟨⟨ls, w.digits, hne, w.digits_ne_nil, halpha, w.isDigit_digits, ?_⟩, rfl, ?_⟩
  · rw [h]
    exact w.not_reserved
  · have hupper := congrArg (List.map Char.toUpper) h
    simp only [List.map_map, Function.comp_def, toUpper_toLower] at hupper
    exact congrArg String.ofList hupper

theorem reads_openParen : Reads ['('] rest [⟨.openParen, "("⟩] :=
  reads_of_lexeme? (by simp) lexeme?_openParen

theorem reads_closeParen : Reads [')'] rest [⟨.closeParen, ")"⟩] :=
  reads_of_lexeme? (by simp) lexeme?_closeParen

theorem reads_function (f : UnaryFunction) (h : cs.map Char.toLower = f.symbol.toList) :
    Reads cs rest [⟨.function, f.symbol⟩] := by
  have hne : cs ≠ [] := by
    rintro rfl
    cases f <;> simp [UnaryFunction.symbol] at h
  simpa using reads_of_lexeme? hne (lexeme?_function f h)

theorem reads_operator (op : BinaryOperator) (h : cs.map Char.toLower = op.symbol.toList)
    (hrest : EndsOperator rest) : Reads cs rest [⟨.operator, op.symbol⟩] := by
  have hne : cs ≠ [] := by
    rintro rfl
    cases op <;> simp [BinaryOperator.symbol] at h
  simpa using reads_of_lexeme? hne (lexeme?_operator op h hrest)

/-- A group reads as its words if what is between the parentheses does. -/
theorem reads_group {ws : List Word} (h : Reads cs (')' :: rest) ws) :
    Reads ('(' :: cs ++ [')']) rest (⟨.openParen, "("⟩ :: ws ++ [⟨.closeParen, ")"⟩]) :=
  (reads_openParen.append h).append reads_closeParen

theorem exists_of_map_toLower_group {body : List Char}
    (h : cs.map Char.toLower = ('(' :: body ++ [')']).map Char.toLower) :
    ∃ ds, cs = '(' :: ds ++ [')'] ∧ ds.map Char.toLower = body.map Char.toLower := by
  rw [List.map_append, List.map_cons] at h
  obtain ⟨front, close, rfl, hfront, hclose⟩ := List.map_eq_append_iff.1 h
  obtain ⟨c, ds, rfl, hc, hds⟩ := List.map_eq_cons_iff.1 hfront
  obtain ⟨d, rfl, hd⟩ := List.map_eq_singleton_iff.1 hclose
  obtain rfl := eq_of_toLower_eq (d := '(') rfl hc
  obtain rfl := eq_of_toLower_eq (d := ')') rfl hd
  exact ⟨ds, rfl, hds⟩

/-- The text of a phrase reads as the words of the phrase, unless what follows goes on with the
operand at its end. -/
theorem reads_phrase (e : Phrase level) (h : cs.map Char.toLower = e.spelling.map Char.toLower)
    (hrest : EndsOperand rest) : Reads cs rest e.words := by
  induction e generalizing cs rest with
  | number n =>
    have halpha : ∀ c ∈ n.chars, c.isAlpha = false := fun _ => NumberWord.isAlpha_of_mem_chars
    have hcs : cs.map Char.toLower = n.chars := by
      rw [h, Phrase.spelling, map_toLower_eq_self halpha]
    obtain rfl := eq_of_map_toLower_eq halpha hcs
    exact reads_of_lexeme? (by simp [NumberWord.chars, n.whole_ne_nil]) (lexeme?_number n hrest)
  | cell w =>
    obtain ⟨v, rfl, hname⟩ := w.exists_of_map_toLower h
    rw [Phrase.words, ← hname]
    exact reads_of_lexeme? (by simp [CellWord.chars, v.letters_ne_nil]) (lexeme?_cell v hrest)
  | group e ih =>
    obtain ⟨ds, rfl, hds⟩ := exists_of_map_toLower_group h
    exact reads_group (ih hds (by simp [EndsOperand]))
  | call f e ih =>
    rw [Phrase.spelling, List.append_assoc, List.map_append] at h
    obtain ⟨fs, gs, rfl, hfs, hgs⟩ := List.map_eq_append_iff.1 h
    obtain ⟨ds, rfl, hds⟩ := exists_of_map_toLower_group hgs
    have hf : fs.map Char.toLower = f.symbol.toList := by
      rw [hfs]
      cases f <;> rfl
    exact (reads_function f hf).append (reads_group (ih hds (by simp [EndsOperand])))
  | binary op l r ihl ihr =>
    rw [Phrase.spelling, List.append_assoc, List.map_append, List.map_append] at h
    obtain ⟨ls, ors, rfl, hls, hors⟩ := List.map_eq_append_iff.1 h
    obtain ⟨os, rs, rfl, hos, hrs⟩ := List.map_eq_append_iff.1 hors
    have hop : os.map Char.toLower = op.symbol.toList := by
      rw [hos]
      cases op <;> rfl
    have hleft : Reads ls ((os ++ rs) ++ rest) l.words := by
      rw [List.append_assoc]
      exact ihl hls (endsOperand_of_operator op hop)
    have hoperator : Reads os (rs ++ rest) [⟨.operator, op.symbol⟩] :=
      reads_operator op hop (endsOperator_of_spelling r hrs)
    exact hleft.append (hoperator.append (ihr hrs hrest))
  | tighter e ih => exact ih h hrest

/-! ## Tokens -/

theorem comma_notMem_spelling (e : Phrase level) : ',' ∉ e.spelling := by
  induction e with
  | number n =>
    intro h
    have := Machine.isPlain_of_mem_chars h
    simp [Numeral.isPlain] at this
  | cell w =>
    intro h
    obtain h | h := List.mem_append.1 h
    · simpa using w.isAlpha_letters _ h
    · simpa using w.isDigit_digits _ h
  | group e ih => simpa [Phrase.spelling] using ih
  | call f e ih => cases f <;> simpa [Phrase.spelling, UnaryFunction.symbol] using ih
  | binary op l r ihl ihr =>
    cases op <;> simpa [Phrase.spelling, BinaryOperator.symbol] using ⟨ihl, ihr⟩
  | tighter e ih => exact ih

theorem bareFunction?_cons {t : Token} {ts : List Token} (h : t.kind ≠ .function) :
    bareFunction? (t :: ts) = bareFunction? ts := by
  simp [bareFunction?, h]

theorem bareFunction?_call {t u : Token} {ts : List Token} (h : u.kind = .openParen) :
    bareFunction? (t :: u :: ts) = bareFunction? ts := by
  simp [bareFunction?, h]

/-- Every function of a phrase is called, so behind the phrase the search for one that is not goes
on as if from the start. -/
theorem bareFunction?_append (e : Phrase level) {ts : List Token} (h : ts.map Token.word = e.words)
    (us : List Token) : bareFunction? (ts ++ us) = bareFunction? us := by
  induction e generalizing ts us with
  | number n =>
    obtain ⟨t, rfl, ht⟩ := List.map_eq_singleton_iff.1 h
    exact bareFunction?_cons (by simp [(Token.kind_eq_of_word ht).1])
  | cell w =>
    obtain ⟨t, rfl, ht⟩ := List.map_eq_singleton_iff.1 h
    exact bareFunction?_cons (by simp [(Token.kind_eq_of_word ht).1])
  | group e ih =>
    obtain ⟨fs, cs, rfl, hfs, hcs⟩ := List.map_eq_append_iff.1 h
    obtain ⟨o, ts, rfl, ho, hts⟩ := List.map_eq_cons_iff.1 hfs
    obtain ⟨c, rfl, hc⟩ := List.map_eq_singleton_iff.1 hcs
    rw [List.cons_append, List.cons_append, List.append_assoc, bareFunction?_cons
      (by simp [(Token.kind_eq_of_word ho).1]), ih hts]
    exact bareFunction?_cons (by simp [(Token.kind_eq_of_word hc).1])
  | call f e ih =>
    obtain ⟨fs, cs, rfl, hfs, hcs⟩ := List.map_eq_append_iff.1 h
    obtain ⟨t, ots, rfl, -, hots⟩ := List.map_eq_cons_iff.1 hfs
    obtain ⟨o, ts, rfl, ho, hts⟩ := List.map_eq_cons_iff.1 hots
    obtain ⟨c, rfl, hc⟩ := List.map_eq_singleton_iff.1 hcs
    rw [List.cons_append, List.cons_append, List.cons_append, List.cons_append, List.append_assoc,
      bareFunction?_call (Token.kind_eq_of_word ho).1, ih hts]
    exact bareFunction?_cons (by simp [(Token.kind_eq_of_word hc).1])
  | binary op l r ihl ihr =>
    obtain ⟨ls, ors, rfl, hls, hors⟩ := List.map_eq_append_iff.1 h
    obtain ⟨o, rs, rfl, ho, hrs⟩ := List.map_eq_cons_iff.1 hors
    rw [List.append_assoc, ihl hls, List.cons_append, bareFunction?_cons
      (by simp [(Token.kind_eq_of_word ho).1]), ihr hrs]
  | tighter e ih => exact ih h us

/-- The tokens of a formula are those among its pieces, and its functions are called. -/
theorem eq_of_tokenize {formula : String} {ts : List Token} (h : tokenize formula = .ok ts) :
    ts = (pieces formula).filterMap Piece.token? ∧ bareFunction? ts = none := by
  unfold tokenize at h
  split at h
  · cases h
  dsimp only at h
  split at h
  · cases h
  split at h
  next => cases h
  next hbare =>
    obtain rfl := Except.ok.inj h
    exact ⟨rfl, hbare⟩

theorem withoutSeparators_eq (text : String) :
    withoutSeparators text = text.toList.filter (· ∉ [' ', '\t', '\r', '\n']) := by
  refine List.filter_congr fun c _ => ?_
  rw [isSeparator, Bool.eq_iff_iff]
  simp [and_assoc]

theorem Reads.pieces {text : String} {ws : List Word} (h : Reads (withoutSeparators text) [] ws) :
    ∃ ts : List Token, ts.map Token.word = ws ∧ pieces text = ts.map Piece.token := by
  obtain ⟨ts, hts, hpieces⟩ := h 0
  exact ⟨ts, hts, by simpa [Spreadsheet.pieces, piecesFrom] using hpieces⟩

/-- A text that renders a phrase has the words of the phrase as its tokens. -/
theorem tokenize_of_renders {e : Phrase level} {text : String} (h : e.Renders text) :
    ∃ ts, tokenize text = .ok ts ∧ ts.map Token.word = e.words := by
  unfold Phrase.Renders at h
  have hcomma : text.toList.contains ',' = false := by
    rw [Bool.eq_false_iff]
    intro hmem
    have hkept : ',' ∈ text.toList.filter (· ∉ [' ', '\t', '\r', '\n']) :=
      List.mem_filter.2 ⟨List.contains_iff_mem.1 hmem, by decide⟩
    have hlower : ','.toLower ∈ e.spelling.map Char.toLower := h ▸ List.mem_map_of_mem hkept
    obtain ⟨c, hc, hcl⟩ := List.mem_map.1 hlower
    obtain rfl : c = ',' := eq_of_toLower_eq rfl hcl
    exact comma_notMem_spelling e hc
  rw [← withoutSeparators_eq] at h
  obtain ⟨ts, hts, hpieces⟩ := Reads.pieces (reads_phrase e h (by simp [EndsOperand]))
  have hstrays : (ts.map Piece.token).filterMap Piece.stray? = [] := by
    simp [List.filterMap_map, Function.comp_def, Piece.stray?]
  have htokens : (ts.map Piece.token).filterMap Piece.token? = ts := by
    simp [List.filterMap_map, Function.comp_def, Piece.token?]
  have hbare : bareFunction? ts = none := by
    simpa [bareFunction?] using bareFunction?_append e hts []
  refine ⟨ts, ?_, hts⟩
  rw [tokenize, hcomma]
  simp [hpieces, hstrays, htokens, hbare]

end Spreadsheet
