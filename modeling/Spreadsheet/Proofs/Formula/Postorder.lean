import Spreadsheet.Formula.Postorder
import Spreadsheet.Proofs.Formula.Lexer

/-!
# Postorder of phrases

While a phrase is read, the stack below it is not touched: what waits there binds less tightly than
the operators of the phrase, or is an opening parenthesis. At the end of the phrase a part of its
postorder has been put out and the rest waits on top of that stack, all of it operators that bind at
least as tightly as the phrase. This is carried through the levels of the grammar.

## Main statements

* `postorderFrom_phrase` — how a phrase is read in any surroundings.
* `postorder_of_renders` — a text that renders a phrase has the postorder of its tree.
-/

namespace Spreadsheet

variable {level : Level} {stack pending : List Token} {t o : Token}

/-! ## Ranks -/

/-- The rank of the operators that make phrases of a level. Functions have the rank of primaries. -/
def Level.rank : Level → Nat
  | comparison => 1
  | sum => 2
  | product => 3
  | primary => 4

theorem Level.rank_le_tighter (level : Level) : level.rank ≤ level.tighter.rank := by
  cases level <;> decide

theorem rank_symbol (op : BinaryOperator) : rank op.symbol = op.level.rank := by
  cases op <;> decide

theorem rank_lt_tighter (op : BinaryOperator) : rank op.symbol < op.level.tighter.rank := by
  cases op <;> decide

/-- What binds leaves parentheses on the stack. -/
theorem yieldsTo_openParen {op : Token} (hop : 0 < rank op.text) (ho : o.text = "(") :
    yieldsTo op o = false := by
  have hparen : rank "(" = 0 := by decide
  simp only [yieldsTo, ho, hparen, decide_eq_false_iff_not]
  omega

theorem kind_ne_openParen_of_yieldsTo {op : Token} (hop : 0 < rank op.text)
    (ho : o.kind = .openParen → o.text = "(") (h : yieldsTo op o) : o.kind ≠ .openParen := by
  intro hopen
  rw [yieldsTo_openParen hop (ho hopen)] at h
  cases h

/-! ## What waits -/

/-- Whether a phrase of a level can be read on top of a stack without touching it. -/
def Rests (level : Level) (stack : List Token) : Prop :=
  ∀ t ∈ stack.head?, t.kind ≠ .function ∧ rank t.text < level.rank

/-- Whether tokens are operators that may wait behind a phrase of a level. -/
def Pending (level : Level) (pending : List Token) : Prop :=
  ∀ t ∈ pending, t.kind = .operator ∧ level.rank ≤ rank t.text

theorem rests_openParen (stack : List Token) (ho : o.word = ⟨.openParen, "("⟩) :
    Rests .comparison (o :: stack) := by
  obtain ⟨hkind, htext⟩ := Token.kind_eq_of_word ho
  intro t ht
  obtain rfl : t = o := by simpa using ht.symm
  rw [hkind, htext]
  exact ⟨by decide, by decide⟩

theorem rests_operator {op : BinaryOperator} (stack : List Token)
    (ho : o.word = ⟨.operator, op.symbol⟩) :
    Rests op.level.tighter (o :: stack) := by
  obtain ⟨hkind, htext⟩ := Token.kind_eq_of_word ho
  intro t ht
  obtain rfl : t = o := by simpa using ht.symm
  rw [hkind, htext]
  exact ⟨by decide, rank_lt_tighter op⟩

theorem Rests.tighter (h : Rests level stack) : Rests level.tighter stack := fun t ht =>
  ⟨(h t ht).1, Nat.lt_of_lt_of_le (h t ht).2 level.rank_le_tighter⟩

theorem Pending.of_tighter (h : Pending level.tighter pending) : Pending level pending :=
  fun t ht => ⟨(h t ht).1, Nat.le_trans level.rank_le_tighter (h t ht).2⟩

theorem Pending.kind_ne (h : Pending level pending) : ∀ t ∈ pending, t.kind ≠ .openParen :=
  fun t ht => by simp [(h t ht).1]

/-! ## Single steps -/

theorem map_append_map (out out' : List Token) (r : Except Error (List Token)) :
    (r.map (out' ++ ·)).map (out ++ ·) = r.map (out ++ out' ++ ·) := by
  cases r <;> simp [Except.map]

theorem postorderFrom_operand (h : t.kind = .number ∨ t.kind = .cell) (ts : List Token) :
    postorderFrom stack (t :: ts) = (postorderFrom stack ts).map ([t] ++ ·) := by
  obtain h | h := h <;> simp [postorderFrom, h]

theorem postorderFrom_push (h : t.kind = .function ∨ t.kind = .openParen) (ts : List Token) :
    postorderFrom stack (t :: ts) = postorderFrom (t :: stack) ts := by
  obtain h | h := h <;> simp [postorderFrom, h]

/-- An operator of a phrase puts out what waits behind its left operand, and no more. -/
theorem postorderFrom_operator {op : BinaryOperator} (ho : o.word = ⟨.operator, op.symbol⟩)
    (hp : Pending op.level pending) (hs : Rests op.level stack) (ts : List Token) :
    postorderFrom (pending ++ stack) (o :: ts) =
      (postorderFrom (o :: stack) ts).map (pending ++ ·) := by
  obtain ⟨hkind, htext⟩ := Token.kind_eq_of_word ho
  have hyields : ∀ t ∈ pending, yieldsTo o t := fun t ht => by
    simpa [yieldsTo, htext, rank_symbol] using (hp t ht).2
  have hstop : ∀ t ∈ stack.head?, yieldsTo o t = false := fun t ht => by
    simpa [yieldsTo, htext, rank_symbol] using (hs t ht).2
  simp only [postorderFrom, hkind, takeWhile_append_of_stop hyields hstop,
    dropWhile_append_of_stop hyields hstop]

theorem closeGroup?_eq (hp : ∀ t ∈ pending, t.kind ≠ .openParen) (ho : o.kind = .openParen)
    (hs : ∀ t ∈ stack.head?, t.kind ≠ .function) :
    closeGroup? (pending ++ o :: stack) = some (pending, stack) := by
  have hopen : ∀ t ∈ pending, decide (t.kind ≠ .openParen) = true := by simpa using hp
  have hstop : ∀ t ∈ (o :: stack).head?, decide (t.kind ≠ .openParen) = false := by simp [ho]
  rw [closeGroup?, takeWhile_append_of_stop hopen hstop, dropWhile_append_of_stop hopen hstop]
  obtain - | ⟨f, stack⟩ := stack
  · rfl
  · exact if_neg (hs f rfl)

theorem closeGroup?_function {f : Token} (stack : List Token)
    (hp : ∀ t ∈ pending, t.kind ≠ .openParen) (ho : o.kind = .openParen)
    (hf : f.kind = .function) :
    closeGroup? (pending ++ o :: f :: stack) = some (pending ++ [f], stack) := by
  have hopen : ∀ t ∈ pending, decide (t.kind ≠ .openParen) = true := by simpa using hp
  have hstop : ∀ t ∈ (o :: f :: stack).head?, decide (t.kind ≠ .openParen) = false := by simp [ho]
  rw [closeGroup?, takeWhile_append_of_stop hopen hstop, dropWhile_append_of_stop hopen hstop]
  exact if_pos hf

theorem postorderFrom_close {leaving rest : List Token} (ht : t.kind = .closeParen)
    (h : closeGroup? stack = some (leaving, rest)) (ts : List Token) :
    postorderFrom stack (t :: ts) = (postorderFrom rest ts).map (leaving ++ ·) := by
  simp [postorderFrom, ht, h]

/-! ## Phrases -/

theorem postorderFrom_group {c : Token} {inner out leaving below : List Token}
    (ho : o.kind = .openParen) (hc : c.kind = .closeParen)
    (hread : ∀ rest, postorderFrom (o :: stack) (inner ++ rest) =
      (postorderFrom (pending ++ o :: stack) rest).map (out ++ ·))
    (hclose : closeGroup? (pending ++ o :: stack) = some (leaving, below)) (rest : List Token) :
    postorderFrom stack (o :: (inner ++ [c]) ++ rest) =
      (postorderFrom below rest).map (out ++ leaving ++ ·) := by
  calc postorderFrom stack (o :: (inner ++ [c]) ++ rest)
      = postorderFrom (o :: stack) (inner ++ c :: rest) := by
        rw [List.cons_append, postorderFrom_push (.inr ho), List.append_assoc,
          List.singleton_append]
    _ = ((postorderFrom below rest).map (leaving ++ ·)).map (out ++ ·) := by
        rw [hread, postorderFrom_close hc hclose]
    _ = (postorderFrom below rest).map (out ++ leaving ++ ·) := map_append_map out leaving _

/-- Over a stack on which a phrase rests, the phrase puts out the front of its postorder and leaves
the rest to wait. -/
theorem postorderFrom_phrase (e : Phrase level) {ts stack : List Token}
    (h : ts.map Token.word = e.words) (hs : Rests level stack) :
    ∃ out pending, (out ++ pending).map Token.word = e.expr.postorder ∧ Pending level pending ∧
      ∀ rest, postorderFrom stack (ts ++ rest) =
        (postorderFrom (pending ++ stack) rest).map (out ++ ·) := by
  induction e generalizing ts stack with
  | number n =>
    obtain ⟨t, rfl, ht⟩ := List.map_eq_singleton_iff.1 h
    refine ⟨[t], [], by simpa [Phrase.expr, Expr.postorder] using ht, by simp [Pending], ?_⟩
    intro rest
    exact postorderFrom_operand (.inl (Token.kind_eq_of_word ht).1) rest
  | cell c =>
    obtain ⟨t, rfl, ht⟩ := List.map_eq_singleton_iff.1 h
    refine ⟨[t], [], by simpa [Phrase.expr, Expr.postorder] using ht, by simp [Pending], ?_⟩
    intro rest
    exact postorderFrom_operand (.inr (Token.kind_eq_of_word ht).1) rest
  | group e ih =>
    obtain ⟨o, ts, rfl, ho, h⟩ := List.map_eq_cons_iff.1 h
    obtain ⟨inner, closing, rfl, hinner, hclosing⟩ := List.map_eq_append_iff.1 h
    obtain ⟨c, rfl, hc⟩ := List.map_eq_singleton_iff.1 hclosing
    obtain ⟨out, pending, hout, hp, hread⟩ := ih hinner (rests_openParen stack ho)
    have hclose := closeGroup?_eq hp.kind_ne (Token.kind_eq_of_word ho).1 fun t ht => (hs t ht).1
    refine ⟨out ++ pending, [], by simpa [Phrase.expr] using hout, by simp [Pending], ?_⟩
    exact postorderFrom_group (Token.kind_eq_of_word ho).1 (Token.kind_eq_of_word hc).1 hread hclose
  | call f e ih =>
    obtain ⟨t, ts, rfl, ht, h⟩ := List.map_eq_cons_iff.1 h
    obtain ⟨o, ts, rfl, ho, h⟩ := List.map_eq_cons_iff.1 h
    obtain ⟨inner, closing, rfl, hinner, hclosing⟩ := List.map_eq_append_iff.1 h
    obtain ⟨c, rfl, hc⟩ := List.map_eq_singleton_iff.1 hclosing
    obtain ⟨out, pending, hout, hp, hread⟩ := ih hinner (rests_openParen (t :: stack) ho)
    have hclose := closeGroup?_function stack hp.kind_ne (Token.kind_eq_of_word ho).1
      (Token.kind_eq_of_word ht).1
    refine ⟨out ++ (pending ++ [t]), [], ?_, by simp [Pending], fun rest => ?_⟩
    · rw [List.append_nil, ← List.append_assoc, List.map_append, hout]
      simpa [Expr.postorder, Phrase.expr] using ht
    · rw [List.cons_append, postorderFrom_push (.inl (Token.kind_eq_of_word ht).1)]
      exact postorderFrom_group (Token.kind_eq_of_word ho).1 (Token.kind_eq_of_word hc).1 hread
        hclose rest
  | binary op l r ihl ihr =>
    obtain ⟨left, right, rfl, hleft, h⟩ := List.map_eq_append_iff.1 h
    obtain ⟨o, right, rfl, ho, hright⟩ := List.map_eq_cons_iff.1 h
    obtain ⟨outl, pendl, houtl, hpl, hreadl⟩ := ihl hleft hs
    obtain ⟨outr, pendr, houtr, hpr, hreadr⟩ := ihr hright (rests_operator stack ho)
    refine ⟨outl ++ pendl ++ outr, pendr ++ [o], ?_, ?_, fun rest => ?_⟩
    · have hwords : outl ++ pendl ++ outr ++ (pendr ++ [o]) =
          (outl ++ pendl) ++ (outr ++ pendr) ++ [o] := by simp
      rw [hwords, List.map_append, List.map_append, houtl, houtr]
      simpa [Expr.postorder, Phrase.expr] using ho
    · intro t ht
      obtain ht | ht := List.mem_append.1 ht
      · exact hpr.of_tighter t ht
      · obtain rfl := List.mem_singleton.1 ht
        obtain ⟨hkind, htext⟩ := Token.kind_eq_of_word ho
        exact ⟨hkind, Nat.le_of_eq (by rw [htext, rank_symbol])⟩
    · rw [List.append_assoc, hreadl, List.cons_append, postorderFrom_operator ho hpl hs, hreadr,
        map_append_map, map_append_map, List.append_assoc pendr [o], List.singleton_append]
  | tighter e ih =>
    obtain ⟨out, pending, hout, hp, hread⟩ := ih h hs.tighter
    exact ⟨out, pending, hout, hp.of_tighter, hread⟩

theorem Pending.drain (h : Pending level pending) : drain pending = .ok pending := by
  have hnone : pending.find? (·.kind = .openParen) = none := by
    simpa using h.kind_ne
  rw [Spreadsheet.drain, hnone]

/-- Every text that renders a phrase is read, and as the postorder of the tree of that phrase. -/
theorem postorder_of_renders (e : Phrase .comparison) (text : String) (h : e.Renders text) :
    ∃ ts, postorder text = .ok ts ∧ ts.map Token.word = e.expr.postorder := by
  obtain ⟨ts, hts, hwords⟩ := tokenize_of_renders h
  obtain ⟨out, pending, hout, hp, hread⟩ :=
    postorderFrom_phrase e hwords (show Rests _ [] by simp [Rests])
  refine ⟨out ++ pending, ?_, hout⟩
  calc postorder text
      = postorderFrom [] (ts ++ []) := by rw [postorder, hts, List.append_nil]; rfl
    _ = (postorderFrom pending []).map (out ++ ·) := by rw [hread, List.append_nil]
    _ = .ok (out ++ pending) := by rw [postorderFrom, hp.drain]; rfl

/-- Words broken by blanks, differences that group to the left, a group and a function. -/
theorem postorder_of_renders_differences :
    ∃ ts, postorder "9 - a 1\t- 2. 5 mO\r\nd I nc((Bc0 2)) <> 7" = .ok ts ∧
      ts.map Token.word = [⟨.number, "9"⟩, ⟨.cell, "A1"⟩, ⟨.operator, "-"⟩, ⟨.number, "2.5"⟩,
        ⟨.cell, "BC02"⟩, ⟨.function, "inc"⟩, ⟨.operator, "mod"⟩, ⟨.operator, "-"⟩,
        ⟨.number, "7"⟩, ⟨.operator, "<>"⟩] := by
  let number (whole places : List Char) (hw : whole ≠ []) (hd : ∀ c ∈ whole, c.isDigit)
      (hp : ∀ c ∈ places, c.isDigit) : Phrase .primary := .number ⟨whole, places, hw, hd, hp⟩
  let nine := number ['9'] [] (by simp) (by simp) (by simp)
  let seven := number ['7'] [] (by simp) (by simp) (by simp)
  let twoAndHalf := number ['2'] ['5'] (by simp) (by simp) (by simp)
  let a1 : Phrase .primary := .cell ⟨['a'], ['1'], by simp, by simp, by simp, by simp, by decide⟩
  let bc02 : Phrase .primary :=
    .cell ⟨['B', 'c'], ['0', '2'], by simp, by simp, by simp, by simp, by decide⟩
  let call : Phrase .primary := .call .inc
    (.tighter (.tighter (.tighter (.group (.tighter (.tighter (.tighter bc02)))))))
  let first : Phrase .sum := .binary .sub (.tighter (.tighter nine)) (.tighter a1)
  let second : Phrase .sum := .binary .sub first (.binary .mod (.tighter twoAndHalf) call)
  exact postorder_of_renders (.binary .ne (.tighter second) (.tighter (.tighter seven))) _ rfl

end Spreadsheet
