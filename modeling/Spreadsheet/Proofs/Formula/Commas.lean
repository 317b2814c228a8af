import Spreadsheet.Proofs.Formula.LookupOrder
import Spreadsheet.Proofs.Formula.Lookups

/-!
# Where commas are caught

There are four tests for commas: of the expression before anything else, of a formula before it is
cut into tokens, of the text of each cell that is looked up, and of each text that an operator takes.
Only the first and the third ever find one. A formula that is read has no comma, as the expression has
none; and a text is on the stack only if its cell passed the test, so no operand has one.

## Main definitions

* `Error.IsAboutComma` — the errors that report a comma.
* `CatchesCommas` — computations that stop at the first cell with a comma.

## Main statements

* `Machine.catchesCommas_step`, `Machine.catchesCommas_run` — the machine stops there.
* `commas_evaluate` — where the commas of an expression and of its cells are caught.
-/

namespace Spreadsheet

open Traced (recording)

variable {values : String → Value} {α β : Type} {P : α → Prop} {Q : β → Prop} {e : Error}

/-! ## Errors about commas -/

/-- Whether an error reports a comma, wherever it stands. -/
def Error.IsAboutComma (e : Error) : Prop :=
  e.category = .commaNotAllowed ∨ e.category = .commaInCell

theorem Error.IsOfReading.not_isAboutComma (h : e.IsOfReading) : ¬ e.IsAboutComma := by
  rintro (hcategory | hcategory) <;> cases h <;> cases hcategory

theorem Error.IsOfMachine.not_isAboutComma (h : e.IsOfMachine) : ¬ e.IsAboutComma := by
  rintro (hcategory | hcategory) <;> cases h
  case arithmetic signal | arithmetic signal => cases signal <;> cases hcategory
  all_goals cases hcategory

/-- An operand without a comma is not refused for one. -/
theorem not_isAboutComma_of_toNumber {v : Value} (hv : ¬ v.HasComma) (h : v.toNumber = .error e) :
    ¬ e.IsAboutComma := by
  obtain ⟨s, rfl, hs, -⟩ | hcategory := Value.toNumber_eq_error h
  · exact absurd ⟨s, rfl, hs⟩ hv
  · rintro (h | h) <;> cases hcategory.symm.trans h

theorem comma_notMem_withoutEquals {expression : String} (h : ',' ∉ expression.toList) :
    ',' ∉ (withoutEquals expression).toList := by
  unfold withoutEquals
  split
  next rest hexpression => simpa [hexpression] using h
  next => exact h

/-! ## Computations that catch commas -/

/-- Whether no name has a text with a comma. -/
def NoneHasComma (values : String → Value) (names : List String) : Prop :=
  ∀ name ∈ names, ¬ (values name).HasComma

theorem noneHasComma_nil : NoneHasComma values [] :=
  List.forall_mem_nil _

/-- The computations that look up names with the given values, stop at the first text with a comma
and report its name. They report no other comma. -/
inductive CatchesCommas (values : String → Value) (P : α → Prop) : Traced α → Prop
  | value {names : List String} {a : α} (hnames : NoneHasComma values names) (ha : P a) :
    CatchesCommas values P ⟨names, .ok a⟩
  | otherError {names : List String} {e : Error} (hnames : NoneHasComma values names)
    (he : ¬ e.IsAboutComma) : CatchesCommas values P ⟨names, .error e⟩
  | caught {names : List String} {name : String} (hnames : NoneHasComma values names)
    (hname : (values name).HasComma) :
    CatchesCommas values P ⟨names ++ [name], .error (.commaInCell name)⟩

namespace CatchesCommas

theorem bind {x : Traced α} {f : α → Traced β} (hx : CatchesCommas values P x)
    (hf : ∀ a, P a → CatchesCommas values Q (f a)) : CatchesCommas values Q (x >>= f) := by
  cases hx with
  | otherError hnames he => exact .otherError hnames he
  | caught hnames hname => exact .caught hnames hname
  | @value names a hnames ha =>
    have happend : ∀ more, NoneHasComma values more → NoneHasComma values (names ++ more) :=
      fun more hmore => List.forall_mem_append.2 ⟨hnames, hmore⟩
    have heq : (⟨names, .ok a⟩ : Traced α) >>= f = ⟨names ++ (f a).lookups, (f a).outcome⟩ := rfl
    rw [heq]
    generalize hy : f a = y
    cases hy ▸ hf a ha with
    | value hmore hb => exact .value (happend _ hmore) hb
    | otherError hmore he => exact .otherError (happend _ hmore) he
    | caught hmore hname =>
      rw [← List.append_assoc]
      exact .caught (happend _ hmore) hname

variable {x : Traced α} {names more : List String} {name : String}

theorem category_ne_commaNotAllowed (h : CatchesCommas values P x) (he : x.outcome = .error e) :
    e.category ≠ .commaNotAllowed := by
  intro hcategory
  cases h with
  | value => cases he
  | otherError _ hother =>
    cases he
    exact hother (.inl hcategory)
  | caught =>
    cases he
    cases hcategory

/-- A comma in a cell is one in the text of the last name. -/
theorem exists_last_of_commaInCell (h : CatchesCommas values P x) (he : x.outcome = .error e)
    (hcategory : e.category = .commaInCell) :
    ∃ names name, x.lookups = names ++ [name] ∧ (values name).HasComma := by
  cases h with
  | value => cases he
  | otherError _ hother =>
    cases he
    exact absurd (.inr hcategory) hother
  | caught _ hname => exact ⟨_, _, rfl, hname⟩

/-- Nothing is looked up after a text with a comma. -/
theorem caught_of_hasComma (h : CatchesCommas values P x)
    (hlookups : x.lookups = names ++ name :: more) (hname : (values name).HasComma) :
    more = [] ∧ x.outcome = .error (.commaInCell name) := by
  have hmem : name ∈ x.lookups := by simp [hlookups]
  cases h with
  | value hnames => exact absurd hname (hnames name hmem)
  | otherError hnames => exact absurd hname (hnames name hmem)
  | @caught seen last hnames _ =>
    obtain rfl | ⟨between, next, rfl⟩ := List.eq_nil_or_concat' more
    · obtain ⟨-, hlast⟩ := List.append_inj' hlookups rfl
      cases hlast
      exact ⟨rfl, rfl⟩
    · have hsplit : seen ++ [last] = (names ++ name :: between) ++ [next] := by simpa using hlookups
      obtain ⟨rfl, -⟩ := List.append_inj' hsplit rfl
      exact absurd hname (hnames name (by simp))

end CatchesCommas

/-! ## Runs -/

namespace Machine

variable {stack : List Value} {t : Token} {ts : List Token}

/-- A token keeps texts with commas off the stack. -/
theorem catchesCommas_step (hstack : ∀ v ∈ stack, ¬ v.HasComma) :
    CatchesCommas values (fun stack => ∀ v ∈ stack, ¬ Value.HasComma v)
      (step (recording fun name => .ok (values name)) stack t) := by
  have hnumber (n : Number) {rest : List Value} (hrest : ∀ v ∈ rest, ¬ v.HasComma) :
      ∀ v ∈ Value.number n :: rest, ¬ v.HasComma :=
    List.forall_mem_cons.2 ⟨Value.not_hasComma_number n, hrest⟩
  show CatchesCommas values _ ⟨(step _ stack t).lookups, (step _ stack t).outcome⟩
  rw [lookups_step]
  cases houtcome : (step (recording fun name => .ok (values name)) stack t).outcome with
  | ok stack' =>
    cases effect_of_step houtcome with
    | number hkind =>
      rw [cellNames_of_ne (by simp [hkind])]
      exact .value noneHasComma_nil (hnumber _ hstack)
    | cell hkind h hcomma =>
      obtain rfl := Except.ok.inj h
      rw [cellNames_of_cell hkind]
      exact .value (by simpa [NoneHasComma]) (List.forall_mem_cons.2 ⟨hcomma, hstack⟩)
    | function hkind =>
      rw [cellNames_of_ne (by simp [hkind])]
      exact .value noneHasComma_nil (hnumber _ (List.forall_mem_cons.1 hstack).2)
    | operator hkind =>
      rw [cellNames_of_ne (by simp [hkind])]
      obtain ⟨-, hstack⟩ := List.forall_mem_cons.1 hstack
      exact .value noneHasComma_nil (hnumber _ (List.forall_mem_cons.1 hstack).2)
  | error e =>
    cases failure_of_step houtcome with
    | lookup _ h => cases h
    | comma hkind h hcomma =>
      obtain rfl := Except.ok.inj h
      rw [cellNames_of_cell hkind]
      exact .caught noneHasComma_nil hcomma
    | operand hkind hv h =>
      rw [cellNames_of_ne hkind]
      exact .otherError noneHasComma_nil (not_isAboutComma_of_toNumber (hstack _ hv) h)
    | machine hkind h =>
      rw [cellNames_of_ne hkind]
      exact .otherError noneHasComma_nil h.not_isAboutComma

theorem catchesCommas_steps (hstack : ∀ v ∈ stack, ¬ v.HasComma) :
    CatchesCommas values (fun stack => ∀ v ∈ stack, ¬ Value.HasComma v)
      (steps (recording fun name => .ok (values name)) stack ts) := by
  induction ts generalizing stack with
  | nil => exact .value noneHasComma_nil hstack
  | cons t ts ih => exact (catchesCommas_step hstack).bind fun stack' hstack' => ih hstack'

/-- A run stops at the first cell with a comma. -/
theorem catchesCommas_run :
    CatchesCommas values (fun _ => True)
      (run (recording fun name => .ok (values name)) ts) := by
  refine (catchesCommas_steps (by simp)).bind fun stack _ => ?_
  show CatchesCommas values _ (Traced.ofExcept (result stack))
  cases hresult : result stack with
  | ok v => exact .value noneHasComma_nil trivial
  | error e =>
    exact .otherError noneHasComma_nil (isOfMachine_of_result hresult).not_isAboutComma

end Machine

/-! ## Evaluation -/

/-- An expression without a comma is evaluated up to the first cell with a comma. -/
theorem catchesCommas_evaluate {expression : String} (h : ',' ∉ expression.toList) :
    CatchesCommas values (fun _ => True)
      (evaluate (recording fun name => .ok (values name)) expression) := by
  have hcontains : ¬ expression.toList.contains ',' = true := fun hmem =>
    h (List.contains_iff_mem.1 hmem)
  unfold evaluate
  rw [if_neg hcontains]
  split
  · exact .value noneHasComma_nil trivial
  split
  · exact .value noneHasComma_nil trivial
  show CatchesCommas values _ (Traced.ofExcept (postorder _) >>= fun ts => _)
  cases hpost : postorder (withoutEquals expression) with
  | ok ts => exact Machine.catchesCommas_run
  | error e =>
    obtain ⟨hcomma, -⟩ | hreading := postorder_eq_error hpost
    · exact absurd hcomma (comma_notMem_withoutEquals h)
    · exact .otherError noneHasComma_nil hreading.not_isAboutComma

/-- A comma in an expression is refused before anything else. -/
theorem evaluate_of_comma (resolve : String → Traced Value) {expression : String}
    (h : ',' ∈ expression.toList) : evaluate resolve expression = .fail .commaInFormula := by
  have hblank : ¬ Text.isBlankText expression = true := by
    intro hall
    exact absurd (List.all_eq_true.1 hall ',' h) (by decide)
  rw [evaluate, if_neg hblank, if_pos (List.contains_iff_mem.2 h)]

/-- A comma in an expression is reported as such, and only there, and then no cell is looked up. A
comma in a cell is reported only for the text of the last cell that was looked up; and as soon as
the text of a cell has one, it is reported and no further cell is looked up. -/
theorem commas_evaluate (values : String → Value) (expression : String) :
    let x := evaluate (recording fun name => .ok (values name)) expression
    ((∃ e, x.outcome = .error e ∧ e.category = .commaNotAllowed) ↔ ',' ∈ expression.toList) ∧
    (',' ∈ expression.toList → x.lookups = []) ∧
    (∀ e, x.outcome = .error e → e.category = .commaInCell →
      ∃ names name, x.lookups = names ++ [name] ∧ (values name).HasComma) ∧
    (∀ names name more, x.lookups = names ++ name :: more → (values name).HasComma →
      more = [] ∧ ∃ e, x.outcome = .error e ∧ e.category = .commaInCell) := by
  intro x
  by_cases hcomma : ',' ∈ expression.toList
  · have hx : x = .fail .commaInFormula := evaluate_of_comma _ hcomma
    rw [hx]
    refine ⟨⟨fun _ => hcomma, fun _ => ⟨_, rfl, rfl⟩⟩, fun _ => rfl, ?_, ?_⟩
    · rintro e he hcategory
      cases he
      cases hcategory
    · intro names name more hlookups
      exact absurd hlookups (by simp [Traced.fail])
  · have hcatches : CatchesCommas values (fun _ => True) x := catchesCommas_evaluate hcomma
    refine ⟨⟨?_, fun h => absurd h hcomma⟩, fun h => absurd h hcomma, fun e he hcategory =>
      hcatches.exists_last_of_commaInCell he hcategory, ?_⟩
    · rintro ⟨e, he, hcategory⟩
      exact absurd hcategory (hcatches.category_ne_commaNotAllowed he)
    · intro names name more hlookups hname
      obtain ⟨hmore, houtcome⟩ := hcatches.caught_of_hasComma hlookups hname
      exact ⟨hmore, _, houtcome, rfl⟩

/-- A text with a comma in the second of three cells: the third is not looked up. -/
theorem commas_evaluate_sum :
    let values := fun name => if name = "B1" then Value.text "1,5" else .zero
    (evaluate (recording fun name => .ok (values name)) "=A1 + B1 + C1").lookups = ["A1", "B1"] ∧
      ∃ e, (evaluate (recording fun name => .ok (values name)) "=A1 + B1 + C1").outcome = .error e ∧
        e.category = .commaInCell := by
  intro values
  have hlookups : (evaluate (recording fun name => .ok (values name)) "=A1 + B1 + C1").lookups =
      ["A1", "B1"] := by
    decide +kernel
  obtain ⟨-, -, -, hcaught⟩ := commas_evaluate values "=A1 + B1 + C1"
  exact ⟨hlookups, (hcaught ["A1"] "B1" [] hlookups ⟨"1,5", rfl, by decide⟩).2⟩

end Spreadsheet
