import Spreadsheet.Proofs.Formula.Operands
import Spreadsheet.Proofs.Formula.Postorder

/-!
# Postorder as a rearrangement

Tokens go from the input to the stack or to the output, and from the stack to the output, but for
parentheses, which are dropped. So what waits and what is to come makes up the output, and nothing
is lost or comes twice. Operands never wait. So what has left the stack before an operand comes was
read before it, and an operand behind an operator in the output was read behind it.

Tokens may look alike, so each one is followed by the place at which it was read.

## Main definitions

* `Rearranges` — output made of the tokens read, with the operands in turn.
* `Underway` — tokens that wait and tokens to come, in the course of a conversion.

## Main statements

* `Converts.exists_rearranges` — what waits and what is to come makes up the output.
* `perm_toPostorder` — the postorder has all tokens but the parentheses.
* `toPostorder_rearranges` — what is put out comes behind the operands read before it.
-/

namespace Spreadsheet

variable {stack ts out : List Token} {seen seen' waiting later placed : List (Token × Nat)}
  {a : Token × Nat}

theorem Token.isParen_of_isOperand {t : Token} (h : t.isOperand) : t.isParen = false := by
  simp only [Token.isOperand, Bool.or_eq_true, decide_eq_true_eq] at h
  obtain h | h := h <;> simp [Token.isParen, h]

/-! ## Tokens with their places -/

/-- Whether the second of two tokens was read behind the first one, if it is an operand. -/
def InTurn (a b : Token × Nat) : Prop :=
  b.1.isOperand → a.2 < b.2

/-- The tokens that were read make up the output, but for parentheses. Of two tokens in the output
the second one was read later if it is an operand. -/
structure Rearranges (seen placed : List (Token × Nat)) : Prop where
  perm : placed.Perm (seen.filter (!·.1.isParen))
  inTurn : placed.Pairwise InTurn

namespace Rearranges

theorem mem_seen (h : Rearranges seen placed) (ha : a ∈ placed) : a ∈ seen :=
  List.mem_of_mem_filter (h.perm.mem_iff.1 ha)

/-- The order in which tokens were read does not matter once their places are known. -/
theorem of_perm (h : Rearranges seen placed)
    (hperm : (seen'.filter (!·.1.isParen)).Perm (seen.filter (!·.1.isParen))) :
    Rearranges seen' placed :=
  ⟨h.perm.trans hperm.symm, h.inTurn⟩

/-- Tokens that are in turn may leave before others, if the operands among these were read later. -/
theorem append (h : Rearranges seen placed) (hparen : ∀ a ∈ waiting, a.1.isParen = false)
    (hwaiting : waiting.Pairwise InTurn) (hbefore : ∀ a ∈ waiting, ∀ b ∈ seen, InTurn a b) :
    Rearranges (waiting ++ seen) (waiting ++ placed) where
  perm := by
    have hfilter : waiting.filter (!·.1.isParen) = waiting :=
      List.filter_eq_self.2 fun a ha => by simp [hparen a ha]
    rw [List.filter_append, hfilter]
    exact h.perm.append_left waiting
  inTurn := by
    refine List.pairwise_append.2 ⟨hwaiting, h.inTurn, ?_⟩
    intro a ha b hb
    exact hbefore a ha b (h.mem_seen hb)

/-- The parentheses of a group are dropped. -/
theorem of_group {b : Token × Nat} (h : Rearranges (waiting ++ (seen ++ later)) placed)
    (hopen : b.1.kind = .openParen) (hclose : a.1.kind = .closeParen) :
    Rearranges (waiting ++ b :: seen ++ a :: later) placed := by
  refine h.of_perm (.of_eq ?_)
  simp [List.filter_append, Token.isParen, hopen, hclose]

end Rearranges

/-! ## Conversion -/

/-- What may wait: functions, operators, and opening parentheses, which do not bind. -/
structure MayWait (t : Token) : Prop where
  not_operand : t.isOperand = false
  not_close : t.kind ≠ .closeParen
  text_open : t.kind = .openParen → t.text = "("

/-- What may come: anything, if operators bind and opening parentheses do not. -/
structure MayCome (t : Token) : Prop where
  binds : t.kind = .operator → 0 < rank t.text
  text_open : t.kind = .openParen → t.text = "("

/-- Tokens that wait and tokens to come, in the course of a conversion. What waits was read before
what is to come. -/
structure Underway (waiting later : List (Token × Nat)) : Prop where
  mayWait : ∀ a ∈ waiting, MayWait a.1
  mayCome : ∀ a ∈ later, MayCome a.1
  before : ∀ a ∈ waiting, ∀ b ∈ later, a.2 < b.2
  sorted : later.Pairwise fun a b => a.2 < b.2

namespace Underway

theorem of_cons (h : Underway waiting (a :: later)) : Underway waiting later where
  mayWait := h.mayWait
  mayCome := (List.forall_mem_cons.1 h.mayCome).2
  before b hb := (List.forall_mem_cons.1 (h.before b hb)).2
  sorted := h.sorted.of_cons

theorem push (h : Underway waiting (a :: later))
    (hkind : a.1.kind = .function ∨ a.1.kind = .openParen ∨ a.1.kind = .operator) :
    Underway (a :: waiting) later where
  mayWait := by
    have hopen := (h.mayCome a List.mem_cons_self).text_open
    refine List.forall_mem_cons.2 ⟨⟨?_, ?_, hopen⟩, h.mayWait⟩
    · obtain hkind | hkind | hkind := hkind <;> simp [Token.isOperand, hkind]
    · obtain hkind | hkind | hkind := hkind <;> simp [hkind]
  mayCome := h.of_cons.mayCome
  before := List.forall_mem_cons.2 ⟨fun _ => List.rel_of_pairwise_cons h.sorted, h.of_cons.before⟩
  sorted := h.sorted.of_cons

theorem of_subset (h : Underway waiting later) (hsub : seen ⊆ waiting) : Underway seen later where
  mayWait b hb := h.mayWait b (hsub hb)
  mayCome := h.mayCome
  before b hb := h.before b (hsub hb)
  sorted := h.sorted

/-- What waits is no operand, so it is in turn behind everything. -/
theorem inTurn_of_mem (h : Underway waiting later) (b : Token × Nat) (ha : a ∈ waiting) :
    InTurn b a := by
  intro hoperand
  rw [(h.mayWait a ha).not_operand] at hoperand
  cases hoperand

/-- What waits, parentheses apart, may leave before anything else that waits or is to come. -/
theorem leave (h : Underway (waiting ++ seen) later)
    (hparen : ∀ a ∈ waiting, a.1.kind ≠ .openParen)
    (hplaced : Rearranges (seen ++ later) placed) :
    Rearranges (waiting ++ (seen ++ later)) (waiting ++ placed) := by
  have hmem : ∀ a ∈ waiting, a ∈ waiting ++ seen := fun a ha => List.mem_append_left seen ha
  refine hplaced.append ?_ ?_ ?_
  · intro a ha
    simp [Token.isParen, hparen a ha, (h.mayWait a (hmem a ha)).not_close]
  · refine List.pairwise_iff_forall_sublist.2 ?_
    intro a b hab
    exact h.inTurn_of_mem a (hmem b (hab.subset (by simp)))
  · intro a ha b hb
    obtain hb | hb := List.mem_append.1 hb
    · exact h.inTurn_of_mem a (List.mem_append_right waiting hb)
    · exact fun _ => h.before a (hmem a ha) b hb

/-! ### Steps -/

theorem operand (h : Underway waiting (a :: later)) (hoperand : a.1.isOperand)
    (hplaced : Rearranges (waiting ++ later) placed) :
    Rearranges (waiting ++ a :: later) (a :: placed) := by
  have hparen := Token.isParen_of_isOperand hoperand
  have hturn : ∀ b ∈ waiting ++ later, InTurn a b := by
    intro b hb
    obtain hb | hb := List.mem_append.1 hb
    · exact h.inTurn_of_mem a hb
    · exact fun _ => List.rel_of_pairwise_cons h.sorted hb
  have hnext : Rearranges ([a] ++ (waiting ++ later)) ([a] ++ placed) :=
    hplaced.append (by simpa using hparen) (List.pairwise_singleton _ a) (by simpa using hturn)
  exact hnext.of_perm (List.perm_middle.filter _)

theorem operator {gone left : List (Token × Nat)} (h : Underway (gone ++ left) (a :: later))
    (hkind : a.1.kind = .operator) (hgone : ∀ b ∈ gone, yieldsTo a.1 b.1)
    (hplaced : Rearranges (a :: left ++ later) placed) :
    Rearranges (gone ++ left ++ a :: later) (gone ++ placed) := by
  have hparen : ∀ b ∈ gone, b.1.kind ≠ .openParen := by
    intro b hb
    have hbinds := (h.mayCome a List.mem_cons_self).binds hkind
    have htext := (h.mayWait b (List.mem_append_left left hb)).text_open
    exact kind_ne_openParen_of_yieldsTo hbinds htext (hgone b hb)
  have hpushed : Underway (gone ++ a :: left) later :=
    (h.push (.inr (.inr hkind))).of_subset List.perm_middle.subset
  refine (hpushed.leave hparen hplaced).of_perm (List.Perm.filter _ ?_)
  rw [List.append_assoc]
  exact List.perm_middle.append_left gone

/-- At the end of a group its tokens leave, and so does the function if there is one. -/
theorem close {inner below : List (Token × Nat)} {b : Token × Nat} (called : List (Token × Nat))
    (h : Underway (inner ++ b :: (called ++ below)) (a :: later)) (hclose : a.1.kind = .closeParen)
    (hopen : b.1.kind = .openParen) (hinner : ∀ c ∈ inner, c.1.kind ≠ .openParen)
    (hcalled : ∀ c ∈ called, c.1.kind ≠ .openParen)
    (hplaced : Rearranges (below ++ later) placed) :
    Rearranges (inner ++ b :: (called ++ below) ++ a :: later) (inner ++ (called ++ placed)) := by
  have hclosed : Underway (inner ++ called ++ below) later := h.of_cons.of_subset (by simp)
  have hleave := hclosed.leave (List.forall_mem_append.2 ⟨hinner, hcalled⟩) hplaced
  simp only [List.append_assoc] at hleave
  refine Rearranges.of_group ?_ hopen hclose
  simpa only [List.append_assoc] using hleave

end Underway

/-- The tokens that wait and those to come make up the output. -/
theorem Converts.exists_rearranges
    (h : Converts (waiting.map Prod.fst) (later.map Prod.fst) out)
    (hunder : Underway waiting later) :
    ∃ placed, placed.map Prod.fst = out ∧ Rearranges (waiting ++ later) placed := by
  -- a conversion does not know the places, so in each case they are found for its tokens
  generalize hstack : waiting.map Prod.fst = stack at h
  generalize hts : later.map Prod.fst = ts at h
  induction h generalizing waiting later with
  | @ended stack hopen =>
    subst hstack
    obtain rfl := List.map_eq_nil_iff.1 hts
    have hnone : ∀ a ∈ waiting, a.1.kind ≠ .openParen := fun a ha =>
      hopen a.1 (List.mem_map_of_mem ha)
    have hplaced : Rearranges ([] ++ []) [] := ⟨.nil, .nil⟩
    refine ⟨waiting, rfl, ?_⟩
    simpa using Underway.leave (by simpa using hunder) hnone hplaced
  | @operand stack ts out t ht _ ih =>
    obtain ⟨a, later, rfl, rfl, rfl⟩ := List.map_eq_cons_iff.1 hts
    obtain ⟨placed, rfl, hplaced⟩ := ih hunder.of_cons hstack rfl
    exact ⟨a :: placed, rfl, hunder.operand ht hplaced⟩
  | @opening stack ts out t ht _ ih =>
    subst hstack
    obtain ⟨a, later, rfl, rfl, rfl⟩ := List.map_eq_cons_iff.1 hts
    obtain ⟨placed, rfl, hplaced⟩ := ih (hunder.push (ht.imp_right .inl)) rfl rfl
    exact ⟨placed, rfl, hplaced.of_perm (List.perm_middle.filter _)⟩
  | @operator gone left ts out t ht hgone _ _ ih =>
    obtain ⟨a, later, rfl, rfl, rfl⟩ := List.map_eq_cons_iff.1 hts
    obtain ⟨gone, left, rfl, rfl, rfl⟩ := List.map_eq_append_iff.1 hstack
    have hleft : Underway (a :: left) later :=
      (hunder.push (.inr (.inr ht))).of_subset (List.cons_subset_cons a (by simp))
    obtain ⟨placed, rfl, hplaced⟩ := ih hleft rfl rfl
    exact ⟨gone ++ placed, List.map_append,
      hunder.operator ht (fun b hb => hgone b.1 (List.mem_map_of_mem hb)) hplaced⟩
  | @group inner below ts out t o ht hinner ho _ _ ih =>
    obtain ⟨a, later, rfl, rfl, rfl⟩ := List.map_eq_cons_iff.1 hts
    obtain ⟨inner, outer, rfl, rfl, houter⟩ := List.map_eq_append_iff.1 hstack
    obtain ⟨b, below, rfl, rfl, rfl⟩ := List.map_eq_cons_iff.1 houter
    have hbelow : Underway below later := hunder.of_cons.of_subset fun c hc => by simp [hc]
    obtain ⟨placed, rfl, hplaced⟩ := ih hbelow rfl rfl
    exact ⟨inner ++ placed, List.map_append, hunder.close [] ht ho
      (fun c hc => hinner c.1 (List.mem_map_of_mem hc)) (by simp) hplaced⟩
  | @call inner below ts out t o f ht hinner ho hf _ ih =>
    obtain ⟨a, later, rfl, rfl, rfl⟩ := List.map_eq_cons_iff.1 hts
    obtain ⟨inner, outer, rfl, rfl, houter⟩ := List.map_eq_append_iff.1 hstack
    obtain ⟨b, rest, rfl, rfl, hrest⟩ := List.map_eq_cons_iff.1 houter
    obtain ⟨f, below, rfl, rfl, rfl⟩ := List.map_eq_cons_iff.1 hrest
    have hbelow : Underway below later := hunder.of_cons.of_subset fun c hc => by simp [hc]
    obtain ⟨placed, rfl, hplaced⟩ := ih hbelow rfl rfl
    exact ⟨inner ++ f :: placed, List.map_append, hunder.close [f] ht ho
      (fun c hc => hinner c.1 (List.mem_map_of_mem hc)) (by simp [hf]) hplaced⟩

/-! ## Tokens of a formula -/

/-- A conversion begins with nothing that waits. -/
theorem Underway.start (hts : ∀ t ∈ ts, MayCome t) : Underway [] ts.zipIdx where
  mayWait := by simp
  mayCome a ha := hts a.1 (List.fst_mem_of_mem_zipIdx ha)
  before := by simp
  sorted := by
    refine List.pairwise_map.1 ?_
    rw [List.zipIdx_map_snd]
    exact List.pairwise_lt_range'

/-- An operand that was read before something is put out before it. -/
theorem Rearranges.mem_before {front back : List (Token × Nat)} {b : Token × Nat}
    (h : Rearranges seen (front ++ a :: back)) (hb : b ∈ seen) (hoperand : b.1.isOperand)
    (hread : b.2 < a.2) : b ∈ front := by
  have hparen : b.1.isParen = false := Token.isParen_of_isOperand hoperand
  have hplaced : b ∈ front ++ a :: back :=
    h.perm.mem_iff.2 (List.mem_filter.2 ⟨hb, by simp [hparen]⟩)
  have hturn := (List.pairwise_append.1 h.inTurn).2.1
  rw [List.mem_append, List.mem_cons] at hplaced
  obtain hfront | rfl | hback := hplaced
  · exact hfront
  · exact absurd hread (Nat.lt_irrefl _)
  · exact absurd (List.rel_of_pairwise_cons hturn hback hoperand) (Nat.lt_asymm hread)

/-- Every postorder is a rearrangement of the tokens. -/
theorem exists_rearranges_of_toPostorder (hts : ∀ t ∈ ts, MayCome t)
    (h : toPostorder ts = .ok out) :
    ∃ placed, placed.map Prod.fst = out ∧ Rearranges ts.zipIdx placed := by
  refine Converts.exists_rearranges ?_ (.start hts)
  simpa using converts_of_postorderFrom h

theorem perm_toPostorder (hts : ∀ t ∈ ts, MayCome t) (h : toPostorder ts = .ok out) :
    out.Perm (ts.filter (!·.isParen)) := by
  obtain ⟨placed, rfl, hplaced⟩ := exists_rearranges_of_toPostorder hts h
  have hfilter : (ts.zipIdx.filter (!·.1.isParen)).map Prod.fst = ts.filter (!·.isParen) := by
    conv_rhs => rw [← List.zipIdx_map_fst 0 ts, List.filter_map]
    rfl
  rw [← hfilter]
  exact hplaced.perm.map Prod.fst

/-- The postorder of tokens has all of them but the parentheses. The operands keep their order, and
whatever is put out comes behind all operands that were read before it. -/
theorem toPostorder_rearranges (ts out : List Token)
    (hbinds : ∀ t ∈ ts, t.kind = .operator → 0 < rank t.text)
    (hopen : ∀ t ∈ ts, t.kind = .openParen → t.text = "(") (h : toPostorder ts = .ok out) :
    (∀ t ∈ out, t.isParen = false) ∧ out.Perm (ts.filter (!·.isParen)) ∧
      out.filter Token.isOperand = ts.filter Token.isOperand ∧
      ∃ placed : List (Token × Nat), placed.map Prod.fst = out ∧
        placed.Perm (ts.zipIdx.filter (!·.1.isParen)) ∧
        ∀ front a back, placed = front ++ a :: back →
          ∀ b ∈ ts.zipIdx, b.1.isOperand → b.2 < a.2 → b ∈ front := by
  have hts : ∀ t ∈ ts, MayCome t := fun t ht => ⟨hbinds t ht, hopen t ht⟩
  have hperm := perm_toPostorder hts h
  have hoperands : out.filter Token.isOperand = ts.filter Token.isOperand :=
    (converts_of_postorderFrom h).filter_isOperand (by simp)
  obtain ⟨placed, hout, hplaced⟩ := exists_rearranges_of_toPostorder hts h
  refine ⟨?_, hperm, hoperands, placed, hout, hplaced.perm, ?_⟩
  · intro t ht
    simpa using List.of_mem_filter (hperm.mem_iff.1 ht)
  · rintro front a back rfl b hb hoperand hread
    exact hplaced.mem_before hb hoperand hread

/-- The tokens of `inc(2-)A1+`, which is no formula, are rearranged all the same. -/
theorem toPostorder_rearranges_malformed :
    toPostorder [⟨.function, "inc", 0⟩, ⟨.openParen, "(", 3⟩, ⟨.number, "2", 4⟩,
        ⟨.operator, "-", 5⟩, ⟨.closeParen, ")", 6⟩, ⟨.cell, "A1", 7⟩, ⟨.operator, "+", 9⟩] =
      .ok [⟨.number, "2", 4⟩, ⟨.operator, "-", 5⟩, ⟨.function, "inc", 0⟩, ⟨.cell, "A1", 7⟩,
        ⟨.operator, "+", 9⟩] ∧
      [(⟨.number, "2", 4⟩ : Token), ⟨.operator, "-", 5⟩, ⟨.function, "inc", 0⟩,
        ⟨.cell, "A1", 7⟩, ⟨.operator, "+", 9⟩].Perm
        [⟨.function, "inc", 0⟩, ⟨.number, "2", 4⟩, ⟨.operator, "-", 5⟩, ⟨.cell, "A1", 7⟩,
          ⟨.operator, "+", 9⟩] := by
  have hpost : toPostorder [⟨.function, "inc", 0⟩, ⟨.openParen, "(", 3⟩, ⟨.number, "2", 4⟩,
        ⟨.operator, "-", 5⟩, ⟨.closeParen, ")", 6⟩, ⟨.cell, "A1", 7⟩, ⟨.operator, "+", 9⟩] =
      .ok [⟨.number, "2", 4⟩, ⟨.operator, "-", 5⟩, ⟨.function, "inc", 0⟩, ⟨.cell, "A1", 7⟩,
        ⟨.operator, "+", 9⟩] := by decide
  obtain ⟨-, hperm, -⟩ := toPostorder_rearranges _ _ (by decide) (by decide) hpost
  exact ⟨hpost, hperm⟩

end Spreadsheet
