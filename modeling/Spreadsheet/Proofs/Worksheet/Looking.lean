import Spreadsheet.Proofs.Grid.References
import Spreadsheet.Proofs.Worksheet.Extent
import Spreadsheet.Sheet.Worksheet

/-!
# Looks that leave no trace

Looking at the cells of a worksheet changes it, for a cell of the used range exists once it was looked
at. But such cells have no value and lie within the used range, so the worksheet stays like the one it
was: with the same values and the same extent. All that can be asked about a worksheet depends on these
alone. So no question changes the answer to another one, and the value of a cell in the worksheet that
changes is its value in the grid of the first worksheet.

## Main definitions

* `Worksheet.Alike` — worksheets with the same values and the same extent.
* `Looking.Sees` — computations with one outcome on all worksheets that are alike.
* `Worksheet.Question`, `Worksheet.ask` — what is asked about worksheets, and the answers.

## Main statements

* `Looking.sees_resolveBelow` — the value of a cell below a chain.
* `Worksheet.resolve_eq` — the value of a cell is that in the grid of the worksheet.
* `Worksheet.alike_ask` — one question leaves a worksheet like the one it was.
* `Worksheet.ask_askAll` — any questions leave the extent and all answers as they were.
-/

namespace Spreadsheet

variable {w w' w'' : Worksheet} {name : String} {p : Position}

namespace Worksheet

/-! ## Worksheets that are alike -/

/-- Whether two worksheets have the same values and the same extent. -/
structure Alike (w w' : Worksheet) : Prop where
  values : w'.values = w.values
  rows : w'.rows = w.rows
  columns : w'.columns = w.columns

theorem Alike.refl (w : Worksheet) : Alike w w :=
  ⟨rfl, rfl, rfl⟩

theorem Alike.trans (h : Alike w w') (h' : Alike w' w'') : Alike w w'' :=
  ⟨h'.values.trans h.values, h'.rows.trans h.rows, h'.columns.trans h.columns⟩

/-- Cells that come into being within the used range make no difference. -/
theorem alike_append_blanks {ps : List Position} (h : ∀ p ∈ ps, w.Covers p) :
    Alike w { w with blanks := ps ++ w.blanks } :=
  ⟨rfl, rows_append_blanks h, columns_append_blanks h⟩

/-! ## The text of a cell -/

theorem alike_getText (w : Worksheet) (name : String) : Alike w (w.getText name).2 := by
  unfold getText
  split
  · exact .refl w
  split
  · exact .refl w
  next hrange =>
    split
    · exact .refl w
    next p hp =>
      obtain ⟨hrow, hcolumn⟩ := Position.of_eq_ok.1 hp
      have hcovers : ∀ q ∈ [p], w.Covers q :=
        List.forall_mem_singleton.2 ⟨by omega, by omega⟩
      exact alike_append_blanks hcovers

theorem Alike.getText (h : Alike w w') (name : String) :
    (w'.getText name).1 = (w.getText name).1 := by
  unfold Worksheet.getText
  rw [h.rows, h.columns]
  split
  · rfl
  split
  · rfl
  split
  · rfl
  · simp only [valueAt, h.values]

theorem Alike.grid (h : Alike w w') : w'.grid = w.grid := by
  unfold Worksheet.grid
  rw [h.rows, h.columns]
  exact congrArg _ (funext fun name => by rw [h.getText])

/-- The text of a cell of the grid is found. -/
theorem getText_of_hasCell (h : w.grid.HasCell name) :
    ∃ p : Position, CellName.split name = .ok (p.row, p.column) ∧ w.Covers p ∧
      (w.getText name).1 = .ok (w.valueAt p).text? := by
  obtain ⟨row, column, hsplit, hrow, hrows, hcolumn, hcolumns⟩ := h
  have hrows : row ≤ w.rows := Int.ofNat_le.1 hrows
  have hcolumns : column ≤ w.columns := Int.ofNat_le.1 hcolumns
  have hlast := Nat.le_trans hrows w.rows_le
  have hlast' := Nat.le_trans hcolumns w.columns_le
  let p : Position := ⟨row, column, by omega, hlast, by omega, hlast'⟩
  have hp : Position.of row column = .ok p := p.of_row_column
  refine ⟨p, hsplit, ⟨hrows, hcolumns⟩, ?_⟩
  unfold getText
  rw [hsplit]
  dsimp only
  rw [if_neg (by omega), hp]

theorem getText_eq_text? (h : w.grid.HasCell name) :
    (w.getText name).1 = .ok (w.grid.text? name) := by
  obtain ⟨p, -, -, htext⟩ := getText_of_hasCell h
  rw [htext, Worksheet.grid]
  dsimp only
  rw [htext]
  cases (w.valueAt p).text? <;> rfl

end Worksheet

/-- What follows the lookup of a cell goes on with what was found there. -/
theorem Traced.outcome_lookup_bind {α β : Type} (name : String) (a : α) (f : α → Traced β) :
    (Traced.lookup name (.ok a) >>= f).outcome = (f a).outcome :=
  rfl

namespace Looking

open Worksheet (Alike)

variable {α β : Type} {x : Looking α} {r : Except Error α}

/-! ## Computations that see one worksheet -/

/-- Whether a computation has an outcome on all worksheets like one, and leaves them like it. -/
def Sees (w : Worksheet) (x : Looking α) (r : Except Error α) : Prop :=
  ∀ w', Alike w w' → (x.run.run w').1 = r ∧ Alike w (x.run.run w').2

namespace Sees

theorem pure (a : α) : Sees w (Pure.pure a) (.ok a) :=
  fun _ h => ⟨rfl, h⟩

theorem throw (e : Error) : Sees w (MonadExcept.throw e : Looking α) (.error e) :=
  fun _ h => ⟨rfl, h⟩

theorem lift (r : Except Error α) : Sees w (liftM r : Looking α) r := by
  cases r with
  | error e => exact throw e
  | ok a => exact pure a

theorem bind {f : α → Looking β} {r' : α → Except Error β} (hx : Sees w x r)
    (hf : ∀ a, r = .ok a → Sees w (f a) (r' a)) : Sees w (x >>= f) (r >>= r') := by
  intro w' h
  obtain ⟨rfl, hlike⟩ := hx w' h
  have hrun : (x >>= f).run.run w' =
      match x.run.run w' with
      | (.error e, w') => (.error e, w')
      | (.ok a, w') => (f a).run.run w' := by
    rw [ExceptT.run_bind, StateT.run_bind]
    show (match x.run.run w' with | (r, w') => _) = _
    obtain ⟨e | a, w''⟩ := x.run.run w' <;> rfl
  rw [hrun]
  cases hr : x.run.run w' with
  | mk r w'' =>
    rw [hr] at hf hlike
    cases r with
    | error e => exact ⟨rfl, hlike⟩
    | ok a => exact hf a rfl w'' hlike

theorem bind_ok {f : α → Looking β} {a : α} {r : Except Error β} (hx : Sees w x (.ok a))
    (hf : Sees w (f a) r) : Sees w (x >>= f) r := by
  have h := hx.bind fun b hb => (Except.ok.inj hb ▸ hf : Sees w (f b) r)
  exact h

/-- What is done with the worksheet itself is done with one like it. -/
theorem get {f : Worksheet → Looking β} {r : Except Error β}
    (hf : ∀ w', Alike w w' → Sees w (f w') r) : Sees w (MonadState.get >>= f) r :=
  fun w' h => hf w' h w' h

end Sees

/-- The text of a cell of the grid is seen. -/
theorem sees_text? (h : w.grid.HasCell name) : Sees w (text? name) (.ok (w.grid.text? name)) := by
  intro w' hlike
  simp only [text?, ExceptT.run, StateT.run]
  rw [hlike.getText, Worksheet.getText_eq_text? h]
  exact ⟨rfl, hlike.trans (Worksheet.alike_getText w' name)⟩

/-! ## Values of cells -/

section Values

variable {resolve : String → Looking Value} {resolve' : String → Traced Value} {limit : Int}
  {more : Nat} {visited : List String}

/-- A token has its effect on the stack by the value of its cell, if it has one. -/
theorem outcome_step (resolve' : String → Traced Value) (stack : List Value) (t : Token) :
    (Machine.step resolve' stack t).outcome =
      (if t.kind = .cell then (resolve' t.text).outcome else .ok .zero) >>= fun v =>
        (Machine.step (fun _ => pure v) stack t).outcome := by
  cases hkind : t.kind with
  | cell =>
    rw [if_pos rfl]
    simp only [Machine.step, hkind]
    rw [Traced.outcome_bind]
    rfl
  | number | function | operator | openParen | closeParen =>
    rw [if_neg (by simp)]
    simp only [Machine.step, hkind]
    rfl

theorem sees_steps (h : ∀ n, Sees w (resolve n) (resolve' n).outcome) (stack : List Value)
    (ts : List Token) :
    Sees w (steps resolve stack ts) (Machine.steps resolve' stack ts).outcome := by
  induction ts generalizing stack with
  | nil => exact .pure stack
  | cons t ts ih =>
    rw [Machine.steps_cons, Traced.outcome_bind, outcome_step, bind_assoc]
    rw [steps]
    by_cases hkind : t.kind = .cell
    · rw [if_pos hkind, if_pos hkind]
      exact (h t.text).bind fun v _ => (Sees.lift _).bind fun stack _ => ih stack
    · rw [if_neg hkind, if_neg hkind]
      exact (Sees.pure _).bind fun v _ => (Sees.lift _).bind fun stack _ => ih stack

theorem sees_value (h : ∀ n, Sees w (resolve n) (resolve' n).outcome) (postorder : List Token) :
    Sees w (value resolve postorder) (Machine.run resolve' postorder).outcome := by
  rw [Machine.run, Traced.outcome_bind]
  exact (sees_steps h [] postorder).bind fun stack _ => .lift _

theorem sees_eval (h : ∀ n, Sees w (resolve n) (resolve' n).outcome) (entry : Entry) :
    Sees w (eval resolve entry) (entry.eval resolve').outcome := by
  cases entry with
  | empty => exact .pure _
  | literal v => exact .pure v
  | reference target => exact h target
  | formula body =>
    rw [Entry.eval, Traced.outcome_bind]
    exact (Sees.lift _).bind fun tokens _ => sees_value h tokens

/-- A cell below a chain has the value that it has in the grid of the worksheet, while the worksheet
changes with every look. -/
theorem sees_resolveBelow (w : Worksheet) (limit : Int) (more : Nat) (visited : List String)
    (name : String) :
    Sees w (resolveBelow limit more visited name)
      (w.grid.resolveBelow limit more visited name).outcome := by
  induction more, visited, name using Grid.chain_induction with
  | @cycle more visited name hmem =>
    have hcontains : visited.contains (Text.upper name) = true := by simpa using hmem
    rw [Grid.resolveBelow_of_mem hmem]
    cases more <;>
    · unfold resolveBelow
      dsimp only
      rw [if_pos hcontains]
      exact .throw _
  | @tooLong visited name hmem =>
    have hcontains : ¬ visited.contains (Text.upper name) = true := by simpa using hmem
    rw [Grid.resolveBelow_zero hmem]
    unfold resolveBelow
    dsimp only
    rw [if_neg hcontains]
    exact .throw _
  | @below more visited name hmem ih =>
    have hcontains : ¬ visited.contains (Text.upper name) = true := by simpa using hmem
    rw [Grid.resolveBelow_succ hmem]
    unfold resolveBelow
    dsimp only
    rw [if_neg hcontains]
    refine Sees.get fun w' hlike => ?_
    rw [hlike.grid, Traced.outcome_bind, Traced.outcome_ofExcept]
    refine (Sees.lift _).bind fun _ hcheck => ?_
    rw [Traced.outcome_lookup_bind]
    exact (sees_text? (Grid.checkName_eq_ok.1 hcheck)).bind_ok (sees_eval ih _)

theorem sees_resolve (w : Worksheet) (limit : Int) (name : String) :
    Sees w (Looking.resolve limit name) (w.grid.resolve limit name) :=
  sees_resolveBelow w limit limit.toNat [] name

theorem sees_evaluate (w : Worksheet) (limit : Int) (expression : String) :
    Sees w (Looking.evaluate limit expression) (w.grid.evaluate limit expression) := by
  unfold Looking.evaluate Grid.evaluate Grid.evaluateTraced Spreadsheet.evaluate
  split
  · exact .pure _
  split
  · exact .throw _
  cases Decimal.ofLiteral? expression with
  | some d => exact .pure _
  | none => exact sees_eval (sees_resolve w limit) _

end Values

end Looking

namespace Worksheet

/-- The value of a cell is that in the grid of the worksheet. -/
theorem resolve_eq (w : Worksheet) (name : String) :
    (w.resolve name).1 = w.grid.resolve Grid.defaultLimit name :=
  (Looking.sees_resolve w Grid.defaultLimit name w (.refl w)).1

/-! ## Questions about worksheets -/

/-- What is asked about a worksheet: the text of a cell under any name, the value of a cell or of an
expression with any greatest length of chains, and the sheet of the worksheet. -/
inductive Question
  | text (name : String)
  | value (limit : Int) (name : String)
  | expression (limit : Int) (expression : String)
  | sheet

/-- The answers, failures included. -/
inductive Answer
  | text (r : Except Error (Option String))
  | value (r : Except Error Value)
  | sheet (s : Sheet)

/-- The answer to a question, and the worksheet that is left. -/
def ask (w : Worksheet) : Question → Answer × Worksheet
  | .text name => ((w.getText name).map .text id)
  | .value limit name => ((Looking.resolve limit name).run.run w).map .value id
  | .expression limit expression => ((Looking.evaluate limit expression).run.run w).map .value id
  | .sheet => (.sheet (.ofWorksheet w), w.afterScan)

/-- The worksheet after several questions. -/
def askAll (w : Worksheet) (qs : List Question) : Worksheet :=
  qs.foldl (fun w q => (w.ask q).2) w

theorem Alike.range (h : Alike w w') : w'.range = w.range := by
  rw [Worksheet.range, Worksheet.range, h.rows, h.columns]

theorem alike_afterScan (w : Worksheet) : Alike w w.afterScan :=
  alike_append_blanks fun _ => mem_range.1

theorem Alike.ofWorksheet (h : Alike w w') : Sheet.ofWorksheet w' = Sheet.ofWorksheet w := by
  have hscan : Alike w.afterScan w'.afterScan := by
    have hscan := alike_afterScan w
    have hscan' := h.trans (alike_afterScan w')
    exact ⟨hscan'.values.trans hscan.values.symm, hscan'.rows.trans hscan.rows.symm,
      hscan'.columns.trans hscan.columns.symm⟩
  have hvalue : w'.valueAt = w.valueAt := funext fun p => by rw [valueAt, valueAt, h.values]
  unfold Sheet.ofWorksheet
  dsimp only
  rw [h.range, hvalue, hscan.rows, hscan.columns]

/-- A question leaves a worksheet like the one it was. -/
theorem alike_ask (w : Worksheet) (q : Question) : Alike w (w.ask q).2 := by
  cases q with
  | text name =>
    rw [ask, Prod.map_snd]
    exact alike_getText w name
  | value limit name => exact (Looking.sees_resolve w limit name w (.refl w)).2
  | expression limit expression => exact (Looking.sees_evaluate w limit expression w (.refl w)).2
  | sheet => exact alike_afterScan w

/-- Worksheets that are alike give the same answers. -/
theorem Alike.ask (h : Alike w w') (q : Question) : (w'.ask q).1 = (w.ask q).1 := by
  cases q with
  | text name => rw [Worksheet.ask, Worksheet.ask, Prod.map_fst, Prod.map_fst, h.getText]
  | value limit name =>
    have hsees := Looking.sees_resolve w limit name
    exact congrArg Answer.value ((hsees w' h).1.trans (hsees w (.refl w)).1.symm)
  | expression limit expression =>
    have hsees := Looking.sees_evaluate w limit expression
    exact congrArg Answer.value ((hsees w' h).1.trans (hsees w (.refl w)).1.symm)
  | sheet => exact congrArg Answer.sheet h.ofWorksheet

theorem alike_askAll (w : Worksheet) (qs : List Question) : Alike w (w.askAll qs) := by
  induction qs generalizing w with
  | nil => exact .refl w
  | cons q qs ih => exact (alike_ask w q).trans (ih (w.ask q).2)

/-- After any questions, be they answered or not, a worksheet has the rows and columns that it had
before, and it gives every answer that it would have given at first. -/
theorem ask_askAll (w : Worksheet) (qs : List Question) :
    (w.askAll qs).rows = w.rows ∧ (w.askAll qs).columns = w.columns ∧
      ∀ q, ((w.askAll qs).ask q).1 = (w.ask q).1 :=
  ⟨(alike_askAll w qs).rows, (alike_askAll w qs).columns, (alike_askAll w qs).ask⟩

end Worksheet

end Spreadsheet
