import Mathlib.Data.List.Chain
import Mathlib.Data.List.Nodup
import Spreadsheet.Proofs.Grid.References

/-!
# The paths that errors report

An error about a chain of references reports cells of the grid, each of which refers to the next one.
A cycle is only reported for a cell that is in its own chain, never for a cell that is reached twice
along different chains; and a chain is only too long if all its cells are different.

## Main definitions

* `Grid.Leads` — the references from cells of the grid that hold formulas.

## Main statements

* `Grid.Breaks.exists_path` — the path behind an error, below any chain.
* `Grid.path_of_error` — what the path of an error says about the grid.
-/

namespace Spreadsheet.Grid

variable {g : Grid} {limit : Int} {more : Nat} {visited path front : List String}
  {name m n : String} {e : Error}

/-- Whether a cell lies in the grid and its text is a formula that refers to another cell. -/
def Leads (g : Grid) (m n : String) : Prop :=
  g.HasCell m ∧ ∃ text, g.text? m = some text ∧ text.toList.head? = some '=' ∧ Refers text n

theorem leads_of_refersTo (hm : g.HasCell m) (h : g.RefersTo m n) : g.Leads m n := by
  obtain ⟨text, htext, hrefers⟩ := h
  exact ⟨hm, text, htext, hrefers.head?_eq, hrefers⟩

theorem Leads.refersTo (h : g.Leads m n) : g.RefersTo m n := by
  obtain ⟨-, text, htext, -, hrefers⟩ := h
  exact ⟨text, htext, hrefers⟩

/-! ## Along a path -/

theorem Leads.upper_eq_self (h : g.Leads m n) : Text.upper n = n :=
  upper_eq_self_of_refersTo h.refersTo

/-- All cells of a path have names in upper case, if the first one has. -/
theorem upper_eq_self_of_isChain (h : (m :: path).IsChain g.Leads) (hm : Text.upper m = m) :
    ∀ k ∈ m :: path, Text.upper k = k := by
  induction path generalizing m with
  | nil =>
    intro k hk
    rw [List.mem_singleton.1 hk]
    exact hm
  | cons n path ih =>
    rw [List.isChain_cons_cons] at h
    obtain ⟨hmn, hpath⟩ := h
    exact List.forall_mem_cons.2 ⟨hm, ih hpath hmn.upper_eq_self⟩

theorem exists_leads_of_mem (h : (front ++ [m]).IsChain g.Leads) {k : String} (hk : k ∈ front) :
    ∃ n, g.Leads k n := by
  obtain ⟨before, after, rfl⟩ := List.append_of_mem hk
  rw [List.append_assoc, List.cons_append] at h
  obtain ⟨n, rest, hafter⟩ := List.exists_cons_of_ne_nil (l := after ++ [m]) (by simp)
  rw [hafter, List.isChain_append_cons_cons] at h
  exact ⟨n, h.2.1⟩

/-! ## Behind an error -/

/-- The path that an error reports extends the chain of the cell and consists of different cells up to
the last one. That one closes a cycle, or there is no room for it. -/
theorem Breaks.exists_path (h : g.Breaks limit more visited name e) (hnodup : visited.Nodup)
    (hchain : (visited ++ [Text.upper name]).IsChain g.Leads) :
    ∃ front m, visited ++ [Text.upper name] <+: front ++ [m] ∧ front.Nodup ∧
      (front ++ [m]).IsChain g.Leads ∧
      (m ∈ front ∧ e = .cycle (front ++ [m]) ∨
        m ∉ front ∧ front.length = visited.length + more ∧
          e = .chainTooLong (front ++ [m]) limit) := by
  induction h with
  | cycle hmem => exact ⟨_, _, List.prefix_rfl, hnodup, hchain, .inl ⟨hmem, rfl⟩⟩
  | tooLong hmem => exact ⟨_, _, List.prefix_rfl, hnodup, hchain, .inr ⟨hmem, rfl, rfl⟩⟩
  | @link more visited name n e hmem hcell hn hbelow ih =>
    have hleads : g.Leads (Text.upper name) (Text.upper n) := by
      have hlead := leads_of_refersTo hcell hn
      rwa [hlead.upper_eq_self]
    have hnodup' : (visited ++ [Text.upper name]).Nodup := by
      rw [← List.concat_eq_append]
      exact List.Nodup.concat hmem hnodup
    have hchain' : (visited ++ [Text.upper name] ++ [Text.upper n]).IsChain g.Leads := by
      rw [List.append_assoc, List.singleton_append, List.isChain_append_cons_cons]
      exact ⟨hchain, hleads, List.isChain_singleton _⟩
    obtain ⟨front, m, hprefix, hfront, hpath, hend⟩ := ih hnodup' hchain'
    refine ⟨front, m, (List.prefix_append _ _).trans hprefix, hfront, hpath, hend.imp_right ?_⟩
    rintro ⟨hm, hlength, he⟩
    refine ⟨hm, ?_, he⟩
    rw [hlength, List.length_append, List.length_singleton]
    omega

theorem exists_path_of_error (h : (g.resolveBelow limit more [] name).outcome = .error e)
    (he : e.path? ≠ none) :
    ∃ front m, (front ++ [m]).head? = some (Text.upper name) ∧ front.Nodup ∧
      (front ++ [m]).IsChain g.Leads ∧
      (m ∈ front ∧ e = .cycle (front ++ [m]) ∨
        m ∉ front ∧ front.length = more ∧ e = .chainTooLong (front ++ [m]) limit) := by
  obtain ⟨front, m, ⟨rest, hrest⟩, hnodup, hpath, hend⟩ :=
    (breaks_of_error h he).exists_path List.nodup_nil (List.isChain_singleton _)
  refine ⟨front, m, ?_, hnodup, hpath, ?_⟩
  · rw [← hrest]
    rfl
  · simpa using hend

/-- The path of a cycle begins at the cell, follows references between cells of the grid, and comes
back to one of its cells, which are all different otherwise. The path of a chain that is too long
begins and goes on in the same way, has no cell twice, and is one cell longer than allowed. -/
theorem path_of_error (rows columns limit : Int) (texts : CellTexts) (name : String)
    (path : List String) :
    ((ofTexts rows columns texts).resolve limit name = .error (.cycle path) →
      path.head? = some (Text.upper name) ∧ path.dropLast.Nodup ∧
        (∃ m ∈ path.dropLast, path.getLast? = some m) ∧
        path.IsChain (ofTexts rows columns texts).Leads) ∧
    ∀ limit' : Int,
      (ofTexts rows columns texts).resolve limit name = .error (.chainTooLong path limit') →
      limit' = limit ∧ path.head? = some (Text.upper name) ∧ path.Nodup ∧
        (path.length : Int) = max limit 0 + 1 ∧
        path.IsChain (ofTexts rows columns texts).Leads := by
  refine ⟨fun h => ?_, fun limit' h => ?_⟩
  · obtain ⟨front, m, hhead, hnodup, hpath, ⟨hm, he⟩ | ⟨-, -, he⟩⟩ :=
      exists_path_of_error h (by simp [Error.path?])
    · obtain rfl : path = front ++ [m] := by simpa using he
      rw [List.dropLast_concat]
      exact ⟨hhead, hnodup, ⟨m, hm, List.getLast?_concat⟩, hpath⟩
    · cases he
  · obtain ⟨front, m, hhead, hnodup, hpath, ⟨-, he⟩ | ⟨hm, hlength, he⟩⟩ :=
      exists_path_of_error h (by simp [Error.path?])
    · cases he
    · obtain ⟨rfl, rfl⟩ : path = front ++ [m] ∧ limit' = limit := by simpa using he
      refine ⟨rfl, hhead, ?_, ?_, hpath⟩
      · rw [← List.concat_eq_append]
        exact List.Nodup.concat hm hnodup
      · rw [List.length_append, List.length_singleton, hlength]
        omega

/-- Two cells that refer to each other, and one that reaches them after a cell that it reaches
twice. -/
def loop : CellTexts :=
  .ofList [("A1", "=b1 + C1"), ("B1", "=d1"), ("C1", "=D1 * 2 - e1"), ("D1", "4"), ("E1", "=c1")]

/-- From `A1` the cycle through `C1` and `E1` is reported, and with two cells to a chain the first
chain of three. -/
theorem path_of_error_loop :
    (ofTexts 1 5 loop).resolve 9 "a1" = .error (.cycle ["A1", "C1", "E1", "C1"]) ∧
      ["A1", "C1", "E1", "C1"].IsChain (ofTexts 1 5 loop).Leads ∧
      (ofTexts 1 5 loop).resolve 2 "a1" = .error (.chainTooLong ["A1", "B1", "D1"] 2) ∧
      ["A1", "B1", "D1"].IsChain (ofTexts 1 5 loop).Leads := by
  have hcycle : (ofTexts 1 5 loop).resolve 9 "a1" = .error (.cycle ["A1", "C1", "E1", "C1"]) := by
    decide +kernel
  have hlong : (ofTexts 1 5 loop).resolve 2 "a1" = .error (.chainTooLong ["A1", "B1", "D1"] 2) := by
    decide +kernel
  obtain ⟨-, -, -, hcyclePath⟩ := (path_of_error 1 5 9 loop "a1" _).1 hcycle
  obtain ⟨-, -, -, -, hlongPath⟩ := (path_of_error 1 5 2 loop "a1" _).2 2 hlong
  exact ⟨hcycle, hcyclePath, hlong, hlongPath⟩

end Spreadsheet.Grid
