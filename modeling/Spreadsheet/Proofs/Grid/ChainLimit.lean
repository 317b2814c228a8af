import Mathlib.Data.List.Perm.Subperm
import Mathlib.Data.Nat.Find
import Spreadsheet.Proofs.Grid.Paths

/-!
# The length of chains

A chain that is too long runs through as many cells as the limit allows, all of them different and
all but the last with texts that begin with an equals sign. There are only so many such texts, so
that from some limit on no chain is too long, and from there on the limit does not matter.

## Main statements

* `Grid.exists_passes_of_tooLong` — the cells of a chain that is too long.
* `Grid.length_le_formulaCount` — how long such a chain may be.
* `Grid.exists_threshold` — the limit from which on a cell has one outcome.
-/

namespace Spreadsheet

/-- The number of stored texts that begin with an equals sign. -/
def CellTexts.formulaCount (texts : CellTexts) : Nat :=
  texts.entries.countP fun e => e.2.toList.head? == some '='

namespace Grid

variable {g : Grid} {limit : Int} {more : Nat} {name : String}

/-- Whether a cell passes a chain on: it has a name in upper case and refers to some cell. -/
def Passes (g : Grid) (m : String) : Prop :=
  Text.upper m = m ∧ ∃ n, g.RefersTo m n

/-- The cells of a chain that is too long, up to the last one. -/
theorem exists_passes_of_tooLong {path : List String} {limit' : Int}
    (h : (g.resolveBelow limit more [] name).outcome = .error (.chainTooLong path limit')) :
    limit' = limit ∧ ∃ front : List String, front.Nodup ∧ (∀ m ∈ front, g.Passes m) ∧
      front.length = more := by
  obtain ⟨front, m, hhead, hnodup, hpath, ⟨-, he⟩ | ⟨-, hlength, he⟩⟩ :=
    exists_path_of_error h (by simp [Error.path?])
  · cases he
  · obtain ⟨-, hlimit⟩ := Error.chainTooLong.inj he
    refine ⟨hlimit, front, hnodup, fun k hk => ?_, hlength⟩
    obtain ⟨rest, hrest⟩ := List.head?_eq_some_iff.1 hhead
    have hmem : k ∈ Text.upper name :: rest := hrest ▸ List.mem_append_left _ hk
    obtain ⟨n, hn⟩ := exists_leads_of_mem hpath hk
    rw [hrest] at hpath
    exact ⟨upper_eq_self_of_isChain hpath (Text.upper_upper name) k hmem, n, hn.refersTo⟩

theorem length_le_formulaCount {rows columns : Int} {texts : CellTexts} {front : List String}
    (hnodup : front.Nodup) (hpasses : ∀ m ∈ front, (ofTexts rows columns texts).Passes m) :
    front.length ≤ texts.formulaCount := by
  have hsubset : front ⊆
      (texts.entries.filter fun e => e.2.toList.head? == some '=').map Prod.fst := by
    intro m hm
    obtain ⟨hupper, n, text, htext, hrefers⟩ := hpasses m hm
    have hget : texts.get? m = some text := hupper ▸ htext
    obtain ⟨⟨key, value⟩, hfind, rfl⟩ := Option.map_eq_some_iff.1 hget
    obtain rfl : key = m := by simpa using List.find?_some hfind
    have hhead : value.toList.head? = some '=' := hrefers.head?_eq
    exact List.mem_map.2 ⟨(key, value),
      List.mem_filter.2 ⟨List.mem_of_find?_eq_some hfind, by simp [hhead]⟩, rfl⟩
  have hlength := (hnodup.subperm hsubset).length_le
  rwa [List.length_map, ← List.countP_eq_length_filter] at hlength

/-- No chain is too long for a limit above the number of texts that begin with an equals sign. -/
theorem settled_of_formulaCount_lt {rows columns : Int} {texts : CellTexts}
    (h : texts.formulaCount < more) :
    ((ofTexts rows columns texts).resolveBelow limit more [] name).Settled := by
  intro path limit' he
  obtain ⟨-, front, hnodup, hpasses, hlength⟩ := exists_passes_of_tooLong he
  have hle := length_le_formulaCount hnodup hpasses
  omega

theorem tooLong_of_not_settled (h : ¬ (g.resolveTraced limit name).Settled) :
    ∃ path, g.resolve limit name = .error (.chainTooLong path limit) := by
  simp only [Traced.Settled, not_forall, not_not] at h
  obtain ⟨path, limit', he⟩ := h
  obtain ⟨rfl, -⟩ := exists_passes_of_tooLong he
  exact ⟨path, he⟩

/-- A cell has one outcome for all limits from some threshold on, and below this its chains are too
long. The threshold is at most one more than the number of texts that begin with an equals sign. -/
theorem exists_threshold (rows columns : Int) (texts : CellTexts) (name : String) :
    ∃ (outcome : Except Error Value) (threshold : Int),
      (∀ path limit, outcome ≠ .error (.chainTooLong path limit)) ∧
      threshold ≤ 1 + texts.formulaCount ∧
      ∀ limit : Int,
        (threshold ≤ limit → (ofTexts rows columns texts).resolve limit name = outcome) ∧
        (limit < threshold → ∃ path,
          (ofTexts rows columns texts).resolve limit name = .error (.chainTooLong path limit)) := by
  let g := ofTexts rows columns texts
  let run (k : Nat) : Traced Value := g.resolveBelow k k [] name
  have hsettled : ∃ k, (run k).Settled := ⟨_, settled_of_formulaCount_lt (Nat.lt_succ_self _)⟩
  classical
  let k := Nat.find hsettled
  have hk : (run k).Settled := Nat.find_spec hsettled
  have hle : k ≤ texts.formulaCount + 1 :=
    Nat.find_min' hsettled (settled_of_formulaCount_lt (Nat.lt_succ_self _))
  have hpos : 0 < k := by
    refine Nat.pos_of_ne_zero fun hzero => ?_
    rw [hzero] at hk
    exact hk _ _ (congrArg Traced.outcome (resolveBelow_zero List.not_mem_nil))
  refine ⟨(run k).outcome, k, hk, by omega, fun limit => ⟨fun hlimit => ?_, fun hlimit => ?_⟩⟩
  · have hmore : k ≤ limit.toNat := by omega
    exact congrArg Traced.outcome (resolveBelow_eq_of_settled hk hmore)
  · refine tooLong_of_not_settled fun hlimit => ?_
    have hrun : run limit.toNat = g.resolveTraced limit name :=
      resolveBelow_eq_of_settled hlimit (Nat.le_refl _)
    exact Nat.find_min hsettled (show limit.toNat < k by omega) (hrun ▸ hlimit)

end Grid

end Spreadsheet
