import Spreadsheet.Proofs.Formula.Groups

/-!
# Groups stand for operands

A group that has a postorder of its own puts it out in one piece, whatever waits outside and whatever
comes behind it: its parenthesis binds nothing, so nothing below leaves before it is closed, and then
all that waits above it does. A formula with a group therefore has the postorder of the formula with
one operand in its place, with the postorder of the group for that operand. The function before a group
leaves with it.

Tokens need not make up an expression for this. They only have to be shaped like those of a formula.

## Main definitions

* `IsShaped` — tokens whose operators bind and whose functions are called.
* `Called`, `Seated` — functions before their parentheses, and below them on the stack.
* `substitute` — tokens with others in the place of one of them.

## Main statements

* `isShaped_of_tokenize` — the tokens of a formula have the shape.
* `postorderFrom_append_close` — how a group is read in any surroundings.
* `postorderFrom_append_congr` — a change of later tokens changes what they put out, and no more.
* `toPostorder_group` — a group has the place of an operand.
-/

namespace Spreadsheet

variable {formula : String} {stack pending inner leaving rest behind pre ts us vs out : List Token}
  {t o c f x op : Token} {r : Except Error (List Token)}

/-! ## Shape -/

/-- Whether operators bind and every function stands directly before a parenthesis. -/
structure IsShaped (ts : List Token) : Prop where
  binds : ∀ t ∈ ts, t.kind = .operator → 0 < rank t.text
  called : ∀ (before : List Token) (f : Token) (after : List Token), ts = before ++ f :: after →
    f.kind = .function → ∃ o ∈ after.head?, o.word = ⟨.openParen, "("⟩

theorem bareFunction?_of_append (h : bareFunction? (pre ++ ts) = none) : bareFunction? ts = none := by
  induction pre with
  | nil => exact h
  | cons t pre ih =>
    apply ih
    rw [List.cons_append, bareFunction?] at h
    split at h
    · cases h
    · exact h

/-- The tokens of a formula have the shape. -/
theorem isShaped_of_tokenize (h : tokenize formula = .ok ts) : IsShaped ts where
  binds t ht hkind := by
    obtain ⟨op, hop⟩ := (inGrammar_of_tokenize h ht).inFormula.exists_operator hkind
    have htext : t.text = op.symbol := hop
    rw [htext, rank_symbol]
    cases op <;> decide
  called before f after hts hf := by
    obtain ⟨-, hbare⟩ := eq_of_tokenize h
    obtain ⟨o, us, rfl, ho, -⟩ :=
      exists_openParen_of_bareFunction? hf (bareFunction?_of_append (hts ▸ hbare))
    have hmem : o ∈ ts := by simp [hts]
    exact ⟨o, rfl, (inGrammar_of_tokenize h hmem).eq_openParen ho⟩

/-- Tokens in which every function is followed by its parenthesis. -/
inductive Called : List Token → Prop
  | nil : Called []
  | cons {t : Token} {ts : List Token} (ht : t.kind ≠ .function) (h : Called ts) : Called (t :: ts)
  | call {f o : Token} {ts : List Token} (hf : f.kind = .function) (ho : o.word = ⟨.openParen, "("⟩)
    (h : Called ts) : Called (f :: o :: ts)

theorem Called.tail (h : Called (t :: ts)) (ht : t.kind ≠ .function) : Called ts := by
  cases h with
  | cons _ h => exact h
  | call hf => exact absurd hf ht

/-- Functions are called before any place that is not directly behind one. -/
theorem IsShaped.called_left (h : IsShaped (pre ++ ts))
    (hlast : ∀ f ∈ pre.getLast?, f.kind ≠ .function) : Called pre := by
  have hcalled := h.called
  clear h
  induction pre with
  | nil => exact .nil
  | cons t pre ih =>
    have hpre : Called pre := by
      apply ih
      · intro f hf
        apply hlast
        rw [List.getLast?_cons, Option.mem_def.1 hf]
        rfl
      · rintro before f after hts
        exact hcalled (t :: before) f after (by simp [← hts])
    by_cases ht : t.kind = .function
    · obtain ⟨o, ho, hword⟩ := hcalled [] t (pre ++ ts) rfl ht
      rcases pre with _ | ⟨u, pre⟩
      · exact absurd ht (hlast t rfl)
      · obtain rfl : u = o := by simpa using ho
        have hkind := (Token.kind_eq_of_word hword).1
        exact .call ht hword (hpre.tail (by simp [hkind]))
    · exact .cons ht hpre

/-! ## The stack -/

/-- Stacks on which every function waits below its parenthesis. -/
inductive Seated : List Token → Prop
  | nil : Seated []
  | cons {t : Token} {stack : List Token} (ht : t.kind ≠ .function) (h : Seated stack) :
    Seated (t :: stack)
  | call {o f : Token} {stack : List Token} (ho : o.word = ⟨.openParen, "("⟩)
    (hf : f.kind = .function) (h : Seated stack) : Seated (o :: f :: stack)

namespace Seated

theorem head_ne_function (h : Seated stack) : ∀ t ∈ stack.head?, t.kind ≠ .function := by
  intro t ht
  cases h with
  | nil => cases ht
  | cons hu =>
    obtain rfl := Option.some.inj ht
    exact hu
  | call ho =>
    obtain rfl := Option.some.inj ht
    simp [(Token.kind_eq_of_word ho).1]

/-- Operators take no parenthesis from a function. -/
theorem dropWhile_yieldsTo (h : Seated stack) (hop : 0 < rank op.text) :
    Seated (stack.dropWhile (yieldsTo op)) := by
  induction h with
  | nil => exact .nil
  | @cons t stack ht h ih =>
    rw [List.dropWhile_cons]
    split
    · exact ih
    · exact .cons ht h
  | @call o f stack ho hf h _ =>
    have hstop := yieldsTo_openParen hop (Token.kind_eq_of_word ho).2
    rw [List.dropWhile_cons_of_neg (by simp [hstop])]
    exact .call ho hf h

theorem of_append (h : Seated (inner ++ stack)) (hinner : ∀ t ∈ inner, t.kind ≠ .openParen) :
    Seated stack := by
  induction inner with
  | nil => exact h
  | cons t inner ih =>
    obtain ⟨ht, hinner⟩ := List.forall_mem_cons.1 hinner
    rw [List.cons_append] at h
    generalize hs : inner ++ stack = s at h
    cases h with
    | cons _ h => exact ih (hs ▸ h) hinner
    | call ho => exact absurd (Token.kind_eq_of_word ho).1 ht

/-- The end of a group takes a function along with its parenthesis. -/
theorem of_closeGroup? (h : Seated stack) (hclose : closeGroup? stack = some (leaving, rest)) :
    Seated rest := by
  obtain ⟨inner, o, below, rfl, hinner, ho, hcases⟩ := exists_of_closeGroup? hclose
  have hbelow := h.of_append hinner
  rcases hcases with ⟨-, rfl, hhead⟩ | ⟨f, rfl, hf, -⟩
  · cases hbelow with
    | cons _ h => exact h
    | call _ hf => exact absurd hf (hhead _ rfl)
  · cases hbelow with
    | cons _ h => exact absurd hf (h.head_ne_function f rfl)
    | call _ _ h => exact h

end Seated

/-! ## Groups -/

/-- Whatever is put out has waited or been read. -/
theorem Converts.subset (h : Converts stack ts out) : out ⊆ stack ++ ts := by
  induction h <;> grind

/-- Over the parenthesis of a group its tokens are read as on their own, and all of them are put out
when it is closed. -/
theorem postorderFrom_append_close (h : Converts pending ts inner)
    (hbinds : ∀ t ∈ ts, t.kind = .operator → 0 < rank t.text) (ho : o.word = ⟨.openParen, "("⟩)
    (hc : c.kind = .closeParen)
    (hclose : ∀ pending, (∀ t ∈ pending, t.kind ≠ .openParen) →
      closeGroup? (pending ++ o :: stack) = some (pending ++ behind, rest)) (post : List Token) :
    postorderFrom (pending ++ o :: stack) (ts ++ c :: post) =
      (postorderFrom rest post).map (inner ++ behind ++ ·) := by
  obtain ⟨hkind, htext⟩ := Token.kind_eq_of_word ho
  induction h with
  | ended hopen => exact postorderFrom_close hc (hclose _ hopen) post
  | @operand pending ts out t ht _ ih =>
    have ht : t.kind = .number ∨ t.kind = .cell := by simpa [Token.isOperand] using ht
    rw [List.cons_append, postorderFrom_operand ht, ih (List.forall_mem_cons.1 hbinds).2,
      map_append_map]
    simp
  | opening ht _ ih =>
    rw [List.cons_append, postorderFrom_push ht]
    exact ih (List.forall_mem_cons.1 hbinds).2
  | @operator gone left ts out t ht hgone hleft _ ih =>
    obtain ⟨hbind, hbinds⟩ := List.forall_mem_cons.1 hbinds
    have hstop : ∀ u ∈ (left ++ o :: stack).head?, yieldsTo t u = false := by
      intro u hu
      rcases left with _ | ⟨v, left⟩
      · obtain rfl : o = u := by simpa using hu
        exact yieldsTo_openParen (hbind ht) htext
      · exact hleft u (by simpa using hu)
    rw [List.append_assoc, List.cons_append]
    simp only [postorderFrom, ht, takeWhile_append_of_stop hgone hstop,
      dropWhile_append_of_stop hgone hstop]
    rw [← List.cons_append, ih hbinds, map_append_map, List.append_assoc]
  | @group waiting below ts out t p ht hwaiting hp hbelow _ ih =>
    have hhead : ∀ u ∈ (below ++ o :: stack).head?, u.kind ≠ .function := by
      intro u hu
      rcases below with _ | ⟨v, below⟩
      · obtain rfl : o = u := by simpa using hu
        simp [hkind]
      · exact hbelow u (by simpa using hu)
    rw [List.append_assoc, List.cons_append, List.cons_append,
      postorderFrom_close ht (closeGroup?_eq hwaiting hp hhead),
      ih (List.forall_mem_cons.1 hbinds).2, map_append_map, List.append_assoc]
  | @call waiting below ts out t p f ht hwaiting hp hf _ ih =>
    rw [List.append_assoc, List.cons_append, List.cons_append, List.cons_append,
      postorderFrom_close ht (closeGroup?_function (below ++ o :: stack) hwaiting hp hf),
      ih (List.forall_mem_cons.1 hbinds).2, map_append_map]
    simp

/-! ## Substitution -/

/-- Tokens with others in the place of one of them. -/
def substitute (x : Token) (us ts : List Token) : List Token :=
  ts.flatMap fun t => if t = x then us else [t]

@[simp] theorem substitute_append (x : Token) (us ts vs : List Token) :
    substitute x us (ts ++ vs) = substitute x us ts ++ substitute x us vs :=
  List.flatMap_append

@[simp] theorem substitute_self (x : Token) (us : List Token) : substitute x us [x] = us := by
  simp [substitute]

theorem substitute_of_notMem (h : x ∉ ts) : substitute x us ts = ts := by
  induction ts with
  | nil => rfl
  | cons t ts ih =>
    obtain ⟨ht, hts⟩ := List.ne_and_not_mem_of_not_mem_cons h
    rw [← List.singleton_append, substitute_append, ih hts, substitute, List.flatMap_singleton,
      if_neg (Ne.symm ht)]

theorem map_append_map_substitute (h : x ∉ out) (r : Except Error (List Token)) :
    (r.map (out ++ ·)).map (substitute x us) = (r.map (substitute x us)).map (out ++ ·) := by
  cases r with
  | error e => rfl
  | ok vs => simp [Except.map, substitute_of_notMem h]

/-- If later tokens are exchanged so that only what they put out changes, and only at a token that is not
among those before them, then this is all that changes. -/
theorem postorderFrom_append_congr (hpre : Called pre)
    (hbinds : ∀ t ∈ pre, t.kind = .operator → 0 < rank t.text) (hx : x ∉ pre)
    (hstack : Seated stack) (hxstack : x ∉ stack)
    (hlater : ∀ stack, Seated stack → x ∉ stack →
      postorderFrom stack ts = (postorderFrom stack us).map (substitute x vs)) :
    postorderFrom stack (pre ++ ts) = (postorderFrom stack (pre ++ us)).map (substitute x vs) := by
  induction hpre generalizing stack with
  | nil => exact hlater stack hstack hxstack
  | @cons t pre ht _ ih =>
    obtain ⟨hbind, hbinds⟩ := List.forall_mem_cons.1 hbinds
    obtain ⟨hxt, hx⟩ := List.ne_and_not_mem_of_not_mem_cons hx
    have hpush : x ∉ t :: stack := List.not_mem_cons_of_ne_of_not_mem hxt hxstack
    have hout : x ∉ [t] := by simpa using hxt
    rw [List.cons_append, List.cons_append]
    cases hkind : t.kind with
    | number | cell =>
      have hoperand : t.kind = .number ∨ t.kind = .cell := by simp [hkind]
      rw [postorderFrom_operand hoperand, postorderFrom_operand hoperand,
        map_append_map_substitute hout, ih hbinds hx hstack hxstack]
    | function => exact absurd hkind ht
    | openParen =>
      rw [postorderFrom_push (.inr hkind), postorderFrom_push (.inr hkind)]
      exact ih hbinds hx (.cons ht hstack) hpush
    | operator =>
      have hgone : x ∉ stack.takeWhile (yieldsTo t) := fun hmem =>
        hxstack ((List.takeWhile_sublist _).subset hmem)
      have hleft : x ∉ t :: stack.dropWhile (yieldsTo t) :=
        List.not_mem_cons_of_ne_of_not_mem hxt fun hmem =>
          hxstack ((List.dropWhile_sublist _).subset hmem)
      simp only [postorderFrom, hkind]
      rw [map_append_map_substitute hgone,
        ih hbinds hx (.cons ht (hstack.dropWhile_yieldsTo (hbind hkind))) hleft]
    | closeParen =>
      cases hclose : closeGroup? stack with
      | none =>
        simp only [postorderFrom, hkind, hclose]
        rfl
      | some group =>
        obtain ⟨leaving, rest⟩ := group
        have hsub : leaving ⊆ stack ∧ rest ⊆ stack := by
          obtain ⟨inner, o, below, rfl, -, -, ⟨rfl, rfl, -⟩ | ⟨f, rfl, -, rfl⟩⟩ :=
            exists_of_closeGroup? hclose <;> grind
        rw [postorderFrom_close hkind hclose, postorderFrom_close hkind hclose,
          map_append_map_substitute fun hmem => hxstack (hsub.1 hmem),
          ih hbinds hx (hstack.of_closeGroup? hclose) fun hmem => hxstack (hsub.2 hmem)]
  | @call f o pre hf ho _ ih =>
    obtain ⟨-, hbinds⟩ := List.forall_mem_cons.1 hbinds
    obtain ⟨hxf, hx⟩ := List.ne_and_not_mem_of_not_mem_cons hx
    obtain ⟨hxo, hx⟩ := List.ne_and_not_mem_of_not_mem_cons hx
    have hopen := (Token.kind_eq_of_word ho).1
    have hpush : x ∉ o :: f :: stack := by simp [hxo, hxf, hxstack]
    simp only [List.cons_append, postorderFrom_push (.inl hf), postorderFrom_push (.inr hopen)]
    exact ih (List.forall_mem_cons.1 hbinds).2 hx (.call ho hf hstack) hpush

/-- Tokens that are put out in one piece have the place of an operand. -/
theorem postorderFrom_eq_substitute {post : List Token} (hx : x.kind = .number) (hstack : x ∉ stack)
    (hpost : x ∉ post) (h : postorderFrom stack ts = (postorderFrom stack post).map (us ++ ·)) :
    postorderFrom stack ts = (postorderFrom stack (x :: post)).map (substitute x us) := by
  rw [h, postorderFrom_operand (.inl hx)]
  cases hout : postorderFrom stack post with
  | error e => rfl
  | ok out =>
    have hnot : x ∉ out := by
      intro hmem
      rcases List.mem_append.1 ((converts_of_postorderFrom hout).subset hmem) with hmem | hmem
      · exact hstack hmem
      · exact hpost hmem
    show Except.ok (us ++ out) = Except.ok (substitute x us ([x] ++ out))
    rw [substitute_append, substitute_self, substitute_of_notMem hnot]

/-! ## Formulas -/

/-- A group with a postorder has the place of an operand, in any surroundings: the outcome is that of
the tokens with a number in its place, with the postorder of the group for this number. After a function
the function belongs to the group and leaves behind it. -/
theorem toPostorder_group (pre ts post : List Token) (o c x : Token) (inner : List Token)
    (hshape : IsShaped (pre ++ o :: (ts ++ c :: post))) (ho : o.word = ⟨.openParen, "("⟩)
    (hc : c.kind = .closeParen) (hts : toPostorder ts = .ok inner) (hx : x.kind = .number)
    (hpre : x ∉ pre) (hpost : x ∉ post) :
    ((∀ f ∈ pre.getLast?, f.kind ≠ .function) →
      toPostorder (pre ++ o :: (ts ++ c :: post)) =
        (toPostorder (pre ++ x :: post)).map (substitute x inner)) ∧
    ∀ front f, pre = front ++ [f] → f.kind = .function →
      toPostorder (pre ++ o :: (ts ++ c :: post)) =
        (toPostorder (front ++ x :: post)).map (substitute x (inner ++ [f])) := by
  have hopen := (Token.kind_eq_of_word ho).1
  have hconverts := converts_of_postorderFrom hts
  have hbinds : ∀ t ∈ ts, t.kind = .operator → 0 < rank t.text := fun t ht =>
    hshape.binds t (by simp [ht])
  constructor
  · intro hlast
    apply postorderFrom_append_congr (hshape.called_left hlast)
      (fun t ht => hshape.binds t (by simp [ht])) hpre .nil (by simp)
    intro stack hstack hxstack
    apply postorderFrom_eq_substitute hx hxstack hpost
    rw [postorderFrom_push (.inr hopen)]
    have hclose : ∀ pending : List Token, (∀ t ∈ pending, t.kind ≠ .openParen) →
        closeGroup? (pending ++ o :: stack) = some (pending ++ [], stack) := by
      intro pending hp
      rw [List.append_nil]
      exact closeGroup?_eq hp hopen hstack.head_ne_function
    simpa using postorderFrom_append_close hconverts hbinds ho hc hclose post
  · rintro front f rfl hf
    have hfront : ∀ g ∈ front.getLast?, g.kind ≠ .function := by
      intro g hg hkind
      obtain ⟨before, rfl⟩ := List.getLast?_eq_some_iff.1 hg
      obtain ⟨p, hp, hword⟩ := hshape.called before g (f :: o :: (ts ++ c :: post)) (by simp) hkind
      obtain rfl := Option.some.inj hp
      rw [(Token.kind_eq_of_word hword).1] at hf
      cases hf
    rw [List.append_assoc] at hshape ⊢
    apply postorderFrom_append_congr (hshape.called_left hfront)
      (fun t ht => hshape.binds t (by simp [ht])) (fun hmem => hpre (List.mem_append_left _ hmem)) .nil
      (by simp)
    intro stack hstack hxstack
    apply postorderFrom_eq_substitute hx hxstack hpost
    rw [List.singleton_append, postorderFrom_push (.inl hf), postorderFrom_push (.inr hopen)]
    exact postorderFrom_append_close hconverts hbinds ho hc
      (fun pending hp => closeGroup?_function stack hp hopen hf) post

/-- In `2*(+1)-4` and `2*inc(+1)-4` the group is the right factor, although it is no expression. -/
theorem toPostorder_group_product :
    (∃ ts, tokenize "2*(+1)-4" = .ok ts ∧ toPostorder ts = .ok [⟨.number, "2", 0⟩, ⟨.number, "1", 4⟩,
      ⟨.operator, "+", 3⟩, ⟨.operator, "*", 1⟩, ⟨.number, "4", 7⟩, ⟨.operator, "-", 6⟩]) ∧
    (∃ ts, tokenize "2*inc(+1)-4" = .ok ts ∧ toPostorder ts = .ok [⟨.number, "2", 0⟩,
      ⟨.number, "1", 7⟩, ⟨.operator, "+", 6⟩, ⟨.function, "inc", 2⟩, ⟨.operator, "*", 1⟩,
      ⟨.number, "4", 10⟩, ⟨.operator, "-", 9⟩]) := by
  constructor
  · have htokens : tokenize "2*(+1)-4" =
        .ok ([⟨.number, "2", 0⟩, ⟨.operator, "*", 1⟩] ++ ⟨.openParen, "(", 2⟩ ::
          ([⟨.operator, "+", 3⟩, ⟨.number, "1", 4⟩] ++ ⟨.closeParen, ")", 5⟩ ::
            [⟨.operator, "-", 6⟩, ⟨.number, "4", 7⟩])) := by decide +kernel
    obtain ⟨hgroup, -⟩ := toPostorder_group _ _ _ _ _ ⟨.number, "0", 2⟩
      [⟨.number, "1", 4⟩, ⟨.operator, "+", 3⟩] (isShaped_of_tokenize htokens) rfl rfl (by decide) rfl
      (by decide) (by decide)
    refine ⟨_, htokens, (hgroup (by decide)).trans ?_⟩
    decide
  · have htokens : tokenize "2*inc(+1)-4" =
        .ok ([⟨.number, "2", 0⟩, ⟨.operator, "*", 1⟩, ⟨.function, "inc", 2⟩] ++
          ⟨.openParen, "(", 5⟩ :: ([⟨.operator, "+", 6⟩, ⟨.number, "1", 7⟩] ++
            ⟨.closeParen, ")", 8⟩ :: [⟨.operator, "-", 9⟩, ⟨.number, "4", 10⟩])) := by
      decide +kernel
    obtain ⟨-, hcall⟩ := toPostorder_group _ _ _ _ _ ⟨.number, "0", 2⟩
      [⟨.number, "1", 7⟩, ⟨.operator, "+", 6⟩] (isShaped_of_tokenize htokens) rfl rfl (by decide) rfl
      (by decide) (by decide)
    refine ⟨_, htokens, (hcall [⟨.number, "2", 0⟩, ⟨.operator, "*", 1⟩] _ rfl rfl).trans ?_⟩
    decide

end Spreadsheet
