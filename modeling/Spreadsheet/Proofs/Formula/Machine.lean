import Mathlib.Data.List.Basic
import Spreadsheet.Proofs.Decimal.Numeral
import Spreadsheet.Proofs.Formula.Expression
import Spreadsheet.Proofs.Formula.Traced

/-!
# The stack machine computes the meaning of trees

Running the postorder of a tree pushes the value of the tree, with the same lookups in the same
order and the same error if there is one. Conversely, a run that ends with one value has run the
postorder of one tree: at every point of a successful run the stack holds the values of as many
trees as it has elements, and their postorders are what has been read.

## Main statements

* `Machine.steps_postorder` — the run of a tree before further tokens.
* `Machine.exists_exprs_of_steps` — the trees behind a stack.
* `Machine.run_instructions` — tokens in postorder of a tree have its value, and others have none.
-/

namespace Spreadsheet

theorem Token.kind_eq_of_word {t : Token} {kind : Token.Kind} {text : String}
    (h : t.word = ⟨kind, text⟩) : t.kind = kind ∧ t.text = text := by
  simpa [Token.word] using h

/-! ## Symbols -/

@[simp] theorem UnaryFunction.ofSymbol?_symbol (f : UnaryFunction) :
    ofSymbol? f.symbol = some f := by
  cases f <;> decide

@[simp] theorem BinaryOperator.ofSymbol?_symbol (op : BinaryOperator) :
    ofSymbol? op.symbol = some op := by
  cases op <;> decide

namespace Machine

open Spreadsheet.Expr (withinRange)

variable {resolve : String → Traced Value} {stack stack' : List Value} {t : Token}

/-! ## Single tokens -/

theorem isPlain_of_mem_chars {n : NumberWord} {c : Char} (h : c ∈ n.chars) :
    Numeral.isPlain c := by
  unfold NumberWord.chars at h
  obtain h | h := List.mem_append.1 h
  · simp [Numeral.isPlain, n.isDigit_whole c h]
  · split at h
    · simp at h
    · obtain rfl | h := List.mem_cons.1 h
      · rfl
      · simp [Numeral.isPlain, n.isDigit_places c h]

theorem numeral_text (n : NumberWord) : numeral n.text = .ok (.decimal n.value) := by
  have hplain : Numeral.plain n.text = n.chars :=
    Numeral.plain_eq_self fun c hc => isPlain_of_mem_chars hc
  have hnoExponent : ∀ c : Char, Numeral.isPlain c = false → n.chars.contains c = false := by
    intro c hc
    rw [Bool.eq_false_iff]
    intro hmem
    simp [isPlain_of_mem_chars (List.contains_iff_mem.1 hmem)] at hc
  have hparse : Numeral.parse? n.chars = _ :=
    Numeral.parse?_digits n.whole_ne_nil n.isDigit_whole n.isDigit_places
  have hvalue : Decimal.ofNumeral? n.text = some n.value := by
    rw [Decimal.ofNumeral?, hplain, hnoExponent 'e' rfl, hnoExponent 'E' rfl, hparse]
    rfl
  simp [numeral, Number.ofNumeral?, hvalue]

theorem mapError_rangeError (e : Error) (r : Except Error Number) :
    (r.mapError (rangeError e)).map .number = withinRange e r := by
  obtain e' | n := r
  · cases e' <;> rfl
  · rfl

theorem applyFunction_symbol (f : UnaryFunction) (v : Value) :
    applyFunction f.symbol v =
      v.toNumber >>= fun x => withinRange (.functionOutOfRange f.symbol x) (f.apply x) := by
  simp only [applyFunction, UnaryFunction.ofSymbol?_symbol, mapError_rangeError]

theorem applyOperator_symbol (op : BinaryOperator) (v w : Value) :
    applyOperator op.symbol v w =
      v.toNumber >>= fun x => w.toNumber >>= fun y =>
        withinRange (.operatorOutOfRange op.symbol x y) (op.apply x y) := by
  simp only [applyOperator, BinaryOperator.ofSymbol?_symbol, mapError_rangeError]

theorem step_number {n : NumberWord} (h : t.word = ⟨.number, n.text⟩) :
    step resolve stack t = pure (.decimal n.value :: stack) := by
  obtain ⟨hkind, htext⟩ := Token.kind_eq_of_word h
  simp only [step, hkind, htext, numeral_text]
  rfl

theorem step_cell {name : String} (h : t.word = ⟨.cell, name⟩) :
    step resolve stack t = (Expr.cell name).eval resolve >>= fun v => pure (v :: stack) := by
  obtain ⟨hkind, htext⟩ := Token.kind_eq_of_word h
  simp only [step, hkind, htext, Expr.eval, bind_assoc]
  congr 1
  funext v
  cases v with
  | text s => by_cases hs : ',' ∈ s.toList <;> simp [checkComma, hs] <;> rfl
  | _ => rfl

theorem step_function {f : UnaryFunction} {v : Value} (h : t.word = ⟨.function, f.symbol⟩) :
    step resolve (v :: stack) t =
      (do
        let x ← v.toNumber
        withinRange (.functionOutOfRange f.symbol x) (f.apply x) : Traced Value) >>=
        fun w => pure (w :: stack) := by
  obtain ⟨hkind, htext⟩ := Token.kind_eq_of_word h
  simp only [step, hkind, htext, applyFunction_symbol]
  exact congrArg (· >>= fun w => pure (w :: stack)) (Traced.ofExcept_bind _ _)

theorem step_operator {op : BinaryOperator} {v w : Value} (h : t.word = ⟨.operator, op.symbol⟩) :
    step resolve (w :: v :: stack) t =
      (do
        let x ← v.toNumber
        let y ← w.toNumber
        withinRange (.operatorOutOfRange op.symbol x y) (op.apply x y) : Traced Value) >>=
        fun w => pure (w :: stack) := by
  obtain ⟨hkind, htext⟩ := Token.kind_eq_of_word h
  simp only [step, hkind, htext, applyOperator_symbol]
  refine congrArg (· >>= fun w => pure (w :: stack)) ((Traced.ofExcept_bind _ _).trans ?_)
  exact congrArg _ (funext fun x => Traced.ofExcept_bind _ _)

/-! ## The run of a tree -/

theorem steps_cons (ts : List Token) :
    steps resolve stack (t :: ts) = step resolve stack t >>= fun s => steps resolve s ts :=
  rfl

/-- The postorder of a tree pushes the value of the tree, whatever is on the stack and whatever is
to come. -/
theorem steps_postorder (e : Expr) {ts : List Token} (h : ts.map Token.word = e.postorder)
    (us : List Token) :
    steps resolve stack (ts ++ us) = e.eval resolve >>= fun v => steps resolve (v :: stack) us := by
  induction e generalizing ts us stack with
  | number n =>
    obtain ⟨t, rfl, ht⟩ := List.map_eq_singleton_iff.1 h
    rw [List.singleton_append, steps_cons, step_number ht, Expr.eval, pure_bind, pure_bind]
  | cell name =>
    obtain ⟨t, rfl, ht⟩ := List.map_eq_singleton_iff.1 h
    rw [List.singleton_append, steps_cons, step_cell ht, bind_assoc]
    simp only [pure_bind]
  | call f a ih =>
    obtain ⟨as, fs, rfl, has, hfs⟩ := List.map_eq_append_iff.1 h
    obtain ⟨t, rfl, ht⟩ := List.map_eq_singleton_iff.1 hfs
    rw [List.append_assoc, ih has]
    simp only [Expr.eval, bind_assoc, List.singleton_append, steps_cons, step_function ht,
      pure_bind]
  | binary op l r ihl ihr =>
    obtain ⟨lrs, ops, rfl, hlrs, hops⟩ := List.map_eq_append_iff.1 h
    obtain ⟨ls, rs, rfl, hls, hrs⟩ := List.map_eq_append_iff.1 hlrs
    obtain ⟨t, rfl, ht⟩ := List.map_eq_singleton_iff.1 hops
    rw [List.append_assoc, List.append_assoc, ihl hls]
    simp only [Expr.eval, bind_assoc, ihr hrs, List.singleton_append, steps_cons,
      step_operator ht, pure_bind]

/-! ## The trees behind a stack -/

/-- The words of several trees, the last of which comes first in the list as on a stack. -/
def readings (es : List Expr) : List Word :=
  es.reverse.flatMap Expr.postorder

@[simp] theorem readings_cons (e : Expr) (es : List Expr) :
    readings (e :: es) = readings es ++ e.postorder := by
  simp [readings]

/-- A token that succeeds either is a leaf or takes its operands off the stack, so the stack keeps
standing for trees. -/
theorem exists_exprs_of_step (ht : t.word.IsInstruction)
    (h : (step resolve stack t).outcome = .ok stack') {es : List Expr}
    (hes : es.length = stack.length) :
    ∃ es' : List Expr, es'.length = stack'.length ∧ readings es' = readings es ++ [t.word] := by
  generalize hw : t.word = w at ht
  cases ht with
  | number n =>
    rw [step_number hw] at h
    obtain rfl := Except.ok.inj h
    exact ⟨.number n :: es, by simp [hes], by simp [Expr.postorder]⟩
  | cell name =>
    rw [step_cell hw, Traced.bind_outcome_eq_ok] at h
    obtain ⟨v, -, h⟩ := h
    obtain rfl := Except.ok.inj h
    exact ⟨.cell name :: es, by simp [hes], by simp [Expr.postorder]⟩
  | function f =>
    obtain - | ⟨v, stack⟩ := stack
    · simp [step, (Token.kind_eq_of_word hw).1] at h
    · rw [step_function hw, Traced.bind_outcome_eq_ok] at h
      obtain ⟨w, -, h⟩ := h
      obtain rfl := Except.ok.inj h
      obtain ⟨a, es, rfl⟩ := List.exists_cons_of_length_eq_add_one hes
      exact ⟨.call f a :: es, by simpa using hes, by simp [Expr.postorder]⟩
  | operator op =>
    obtain - | ⟨w, - | ⟨v, stack⟩⟩ := stack
    · simp [step, (Token.kind_eq_of_word hw).1] at h
    · simp [step, (Token.kind_eq_of_word hw).1] at h
    · rw [step_operator hw, Traced.bind_outcome_eq_ok] at h
      obtain ⟨u, -, h⟩ := h
      obtain rfl := Except.ok.inj h
      obtain ⟨r, es, rfl⟩ := List.exists_cons_of_length_eq_add_one hes
      obtain ⟨l, es, rfl⟩ := List.exists_cons_of_length_eq_add_one (Nat.succ.inj hes)
      exact ⟨.binary op l r :: es, by simpa using hes, by simp [Expr.postorder]⟩

theorem exists_exprs_of_steps {ts : List Token} (hts : ∀ t ∈ ts, t.word.IsInstruction)
    (h : (steps resolve stack ts).outcome = .ok stack') {es : List Expr}
    (hes : es.length = stack.length) :
    ∃ es' : List Expr, es'.length = stack'.length ∧
      readings es' = readings es ++ ts.map Token.word := by
  induction ts generalizing stack es with
  | nil =>
    obtain rfl := Except.ok.inj h
    exact ⟨es, hes, by simp⟩
  | cons t ts ih =>
    rw [steps_cons, Traced.bind_outcome_eq_ok] at h
    obtain ⟨next, hstep, hrest⟩ := h
    obtain ⟨es₁, hlen, hread⟩ := exists_exprs_of_step (hts t (by simp)) hstep hes
    obtain ⟨es₂, hlen', hread'⟩ := ih (fun u hu => hts u (by simp [hu])) hrest hlen
    exact ⟨es₂, hlen', by simp [hread', hread]⟩

/-! ## Runs -/

theorem run_postorder {e : Expr} {ts : List Token} (h : ts.map Token.word = e.postorder) :
    run resolve ts = e.eval resolve := by
  have hsteps : steps resolve [] (ts ++ []) = _ := steps_postorder e h []
  rw [List.append_nil] at hsteps
  rw [run, hsteps, bind_assoc]
  exact bind_pure _

theorem exists_expr_of_run {ts : List Token} (hts : ∀ t ∈ ts, t.word.IsInstruction) {v : Value}
    (h : (run resolve ts).outcome = .ok v) : ∃ e : Expr, ts.map Token.word = e.postorder := by
  obtain ⟨stack, hsteps, hresult⟩ := Traced.bind_outcome_eq_ok.1 h
  obtain ⟨es, hlen, hread⟩ :=
    exists_exprs_of_steps hts hsteps (rfl : ([] : List Expr).length = _)
  have hone : es.length = 1 := by
    rw [hlen]
    unfold result at hresult
    split at hresult
    · rfl
    · cases hresult
  obtain ⟨e, rfl⟩ := List.length_eq_one_iff.1 hone
  exact ⟨e, by simpa [readings] using hread.symm⟩

/-- The machine computes what formulas in postorder mean. If its tokens are the postorder of a tree,
the run is the meaning of the tree, lookups, value and error alike; if they are the postorder of no
tree, the run has no value. -/
theorem run_instructions (ts : List Token) (hts : ∀ t ∈ ts, t.word.IsInstruction)
    (resolve : String → Traced Value) :
    (∀ e : Expr, ts.map Token.word = e.postorder → run resolve ts = e.eval resolve) ∧
      ((¬ ∃ e : Expr, ts.map Token.word = e.postorder) →
        ∀ v, (run resolve ts).outcome ≠ .ok v) :=
  ⟨fun _ he => run_postorder he, fun hnone _ hv => hnone (exists_expr_of_run hts hv)⟩

/-- The tokens of `inc(A1 + 2.50)`, where `A1` holds a text that is a number. -/
theorem run_instructions_inc_sum :
    (∀ t ∈ ([⟨.cell, "A1", 4⟩, ⟨.number, "2.50", 7⟩, ⟨.operator, "+", 6⟩, ⟨.function, "inc", 0⟩] :
        List Token), t.word.IsInstruction) ∧
      run (fun name => .lookup name (.ok (.text " 1.5")))
        [⟨.cell, "A1", 4⟩, ⟨.number, "2.50", 7⟩, ⟨.operator, "+", 6⟩, ⟨.function, "inc", 0⟩] =
        ⟨["A1"], .ok (.decimal ⟨false, 500, -2⟩)⟩ := by
  let n : NumberWord := ⟨['2'], ['5', '0'], by simp, by simp, by simp⟩
  let e : Expr := .call .inc (.binary .add (.cell "A1") (.number n))
  have hinstr : ∀ t ∈ ([⟨.cell, "A1", 4⟩, ⟨.number, "2.50", 7⟩, ⟨.operator, "+", 6⟩,
      ⟨.function, "inc", 0⟩] : List Token), t.word.IsInstruction := fun t ht =>
    e.isInstruction_of_mem (List.mem_map_of_mem ht)
  have hlookups : (e.eval fun name => .lookup name (.ok (.text " 1.5"))).lookups = ["A1"] := by
    decide +kernel
  have houtcome : (e.eval fun name => .lookup name (.ok (.text " 1.5"))).outcome =
      .ok (.decimal ⟨false, 500, -2⟩) := by
    decide +kernel
  exact ⟨hinstr, ((run_instructions _ hinstr _).1 e rfl).trans
    (congrArg₂ Traced.mk hlookups houtcome)⟩

end Machine

end Spreadsheet
