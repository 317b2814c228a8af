import Spreadsheet.Error

/-!
# Traced outcomes

The outcome of a computation that looks cells up, together with the names of these cells in the
order of the lookups. The names are known whether the computation succeeds or fails.

## Main definitions

* `Traced` — an outcome and the cells looked up on the way.
* `Traced.lookup` — the lookup of one cell.
-/

namespace Spreadsheet

/-- An outcome and the cells looked up on the way. -/
structure Traced (α : Type) where
  lookups : List String
  outcome : Except Error α

namespace Traced

variable {α β : Type}

/-- An outcome for which no cell is looked up. -/
def ofExcept (r : Except Error α) : Traced α :=
  ⟨[], r⟩

/-- A failure. -/
def fail (e : Error) : Traced α :=
  ofExcept (.error e)

/-- The outcome `r` of looking up the cell `name`. -/
def lookup (name : String) (r : Except Error α) : Traced α :=
  ⟨[name], r⟩

/-- Goes on with the value of the first computation, if it has one. -/
def andThen (x : Traced α) (f : α → Traced β) : Traced β :=
  match x.outcome with
  | .error e => ⟨x.lookups, .error e⟩
  | .ok a => ⟨x.lookups ++ (f a).lookups, (f a).outcome⟩

instance : Monad Traced where
  pure a := ofExcept (.ok a)
  bind := andThen

instance : MonadLift (Except Error) Traced where
  monadLift := ofExcept

@[simp] theorem lookups_pure (a : α) : (pure a : Traced α).lookups = [] := rfl

@[simp] theorem outcome_pure (a : α) : (pure a : Traced α).outcome = .ok a := rfl

@[simp] theorem outcome_ofExcept (r : Except Error α) : (ofExcept r).outcome = r := rfl

@[simp] theorem lookups_ofExcept (r : Except Error α) : (ofExcept r).lookups = [] := rfl

/-- The outcome of two computations in turn does not depend on what they looked up. -/
theorem outcome_bind (x : Traced α) (f : α → Traced β) :
    (x >>= f).outcome = x.outcome >>= fun a => (f a).outcome := by
  show (andThen x f).outcome = _
  unfold andThen
  cases x.outcome <;> rfl

end Traced

end Spreadsheet
