/-!
# Maps in order of insertion

A map from keys to values that remembers the order in which its keys were first inserted. Every key
occurs once. Inserting under a key that is present keeps its place; a key that is erased and
inserted again goes to the end.

## Main definitions

* `OrderedMap` — keys with values, in order.
* `OrderedMap.get?`, `OrderedMap.insert`, `OrderedMap.erase` — access to one key.
* `OrderedMap.ofList` — the map of a list of keys with values.

## Main statements

* `OrderedMap.entries_ofList` — keys that are given once are kept in their order.
* `OrderedMap.entries_eraseAll` — what is left when keys are erased.
* `OrderedMap.get?_insert`, `OrderedMap.get?_erase` — what is found under each key afterwards.
-/

namespace Spreadsheet

/-- Keys with values, in the order of their first insertion. -/
structure OrderedMap (α β : Type) where
  entries : List (α × β)
  nodup : (entries.map Prod.fst).Nodup

namespace OrderedMap

variable {α β : Type}

instance [DecidableEq α] [DecidableEq β] : DecidableEq (OrderedMap α β) := fun m n =>
  if h : m.entries = n.entries then isTrue (by cases m; cases n; simp_all)
  else isFalse (by rintro rfl; exact h rfl)

theorem ext_entries {m n : OrderedMap α β} (h : m.entries = n.entries) : m = n := by
  cases m
  cases n
  cases h
  rfl

/-- The map without keys. -/
def empty : OrderedMap α β :=
  ⟨[], List.nodup_nil⟩

instance : Inhabited (OrderedMap α β) :=
  ⟨empty⟩

/-- The number of keys. -/
def size (m : OrderedMap α β) : Nat :=
  m.entries.length

/-- The keys in order. -/
def keys (m : OrderedMap α β) : List α :=
  m.entries.map Prod.fst

/-- The map with its values replaced, each by a function of it. -/
def mapValues {γ : Type} (f : β → γ) (m : OrderedMap α β) : OrderedMap α γ :=
  ⟨m.entries.map fun e => (e.1, f e.2), by
    rw [List.map_map]
    exact m.nodup⟩

variable [DecidableEq α]

/-- The value under a key. -/
def get? (m : OrderedMap α β) (key : α) : Option β :=
  (m.entries.find? (·.1 = key)).map Prod.snd

/-- Whether a key is present. -/
def contains (m : OrderedMap α β) (key : α) : Bool :=
  m.entries.any (·.1 = key)

theorem contains_iff {m : OrderedMap α β} {key : α} : m.contains key = true ↔ key ∈ m.keys := by
  simp [contains, keys]

/-- The entries with `value` in the place of the value under `key`. -/
def replaceIn (key : α) (value : β) (entries : List (α × β)) : List (α × β) :=
  entries.map fun e => (e.1, if e.1 = key then value else e.2)

theorem map_fst_replaceIn (key : α) (value : β) (entries : List (α × β)) :
    (replaceIn key value entries).map Prod.fst = entries.map Prod.fst := by
  rw [replaceIn, List.map_map]
  rfl

/-- Inserts a value under a key: in its place if the key is present, else at the end. -/
def insert (m : OrderedMap α β) (key : α) (value : β) : OrderedMap α β :=
  if h : m.contains key then
    ⟨replaceIn key value m.entries, by rw [map_fst_replaceIn]; exact m.nodup⟩
  else
    ⟨m.entries ++ [(key, value)], by
      rw [List.map_append, List.nodup_append]
      refine ⟨m.nodup, by simp, ?_⟩
      intro a ha b hb hab
      simp only [List.map_cons, List.map_nil, List.mem_singleton] at hb
      exact h (contains_iff.2 (hb ▸ hab ▸ ha))⟩

/-- Erases a key. -/
def erase (m : OrderedMap α β) (key : α) : OrderedMap α β :=
  ⟨m.entries.filter (·.1 ≠ key), m.nodup.sublist (List.filter_sublist.map _)⟩

/-- Erases several keys. -/
def eraseAll (m : OrderedMap α β) (keys : List α) : OrderedMap α β :=
  keys.foldl erase m

/-- The map of a list of keys with values. Of a key that is given several times, the first place and
the last value count. -/
def ofList (l : List (α × β)) : OrderedMap α β :=
  l.foldl (fun m e => m.insert e.1 e.2) empty

/-! ## Entries -/

theorem entries_insert_of_notMem {m : OrderedMap α β} {key : α} (h : key ∉ m.keys) (value : β) :
    (m.insert key value).entries = m.entries ++ [(key, value)] := by
  rw [insert, dif_neg fun hcontains => h (contains_iff.1 hcontains)]

/-- Keys that are given once are kept in their order. -/
theorem entries_ofList {l : List (α × β)} (h : (l.map Prod.fst).Nodup) :
    (ofList l).entries = l := by
  have hfold : ∀ (l : List (α × β)) (m : OrderedMap α β), ((m.entries ++ l).map Prod.fst).Nodup →
      (l.foldl (fun m e => m.insert e.1 e.2) m).entries = m.entries ++ l := by
    intro l
    induction l with
    | nil => simp
    | cons e l ih =>
      intro m hm
      have hnew : e.1 ∉ m.keys := by
        rw [List.map_append, List.map_cons, List.nodup_append] at hm
        exact fun hmem => hm.2.2 _ hmem _ List.mem_cons_self rfl
      have hinsert := entries_insert_of_notMem hnew e.2
      rw [List.foldl_cons, ih _ (by simpa [hinsert] using hm), hinsert, List.append_assoc]
      rfl
  exact hfold l empty h

/-- Erasing keys leaves the other entries in their order. -/
theorem entries_eraseAll (m : OrderedMap α β) (keys : List α) :
    (m.eraseAll keys).entries = m.entries.filter (·.1 ∉ keys) := by
  unfold eraseAll
  induction keys generalizing m with
  | nil => exact (List.filter_eq_self.2 (by simp)).symm
  | cons key keys ih =>
    rw [List.foldl_cons, ih, erase, List.filter_filter]
    refine List.filter_congr fun e _ => ?_
    simp [Bool.and_comm]

/-- Erasing keys changes nothing if and only if none of them is present. -/
theorem eraseAll_eq_self_iff {m : OrderedMap α β} {keys : List α} :
    m.eraseAll keys = m ↔ ∀ key ∈ m.keys, key ∉ keys := by
  have hentries : m.eraseAll keys = m ↔ (m.eraseAll keys).entries = m.entries :=
    ⟨congrArg entries, ext_entries⟩
  rw [hentries, entries_eraseAll, List.filter_eq_self]
  simp [OrderedMap.keys]

/-- Erasing some keys and then others is erasing all of them. -/
theorem eraseAll_append (m : OrderedMap α β) (keys keys' : List α) :
    m.eraseAll (keys ++ keys') = (m.eraseAll keys).eraseAll keys' :=
  List.foldl_append

/-- It does not matter in which order keys are erased, or how often. -/
theorem eraseAll_congr {keys keys' : List α} (m : OrderedMap α β)
    (h : ∀ key, key ∈ keys ↔ key ∈ keys') : m.eraseAll keys = m.eraseAll keys' := by
  refine ext_entries ?_
  simp only [entries_eraseAll, h]

/-! ## Values replaced -/

section MapValues

variable {γ : Type} {f : β → γ}

theorem contains_mapValues (m : OrderedMap α β) (f : β → γ) (key : α) :
    (m.mapValues f).contains key = m.contains key := by
  simp [contains, mapValues, Function.comp_def]

theorem mapValues_insert (m : OrderedMap α β) (f : β → γ) (key : α) (value : β) :
    (m.insert key value).mapValues f = (m.mapValues f).insert key (f value) := by
  refine ext_entries ?_
  unfold insert
  by_cases h : m.contains key
  · rw [dif_pos h, dif_pos (by rwa [contains_mapValues])]
    simp only [mapValues, replaceIn, List.map_map]
    refine List.map_congr_left fun e _ => ?_
    by_cases hkey : e.1 = key <;> simp [hkey]
  · rw [dif_neg h, dif_neg (by rwa [contains_mapValues])]
    simp [mapValues]

theorem mapValues_ofList (l : List (α × β)) (f : β → γ) :
    (ofList l).mapValues f = ofList (l.map fun e => (e.1, f e.2)) := by
  have hfold : ∀ (l : List (α × β)) (m : OrderedMap α β),
      (l.foldl (fun m e => m.insert e.1 e.2) m).mapValues f =
        (l.map fun e => (e.1, f e.2)).foldl (fun m e => m.insert e.1 e.2) (m.mapValues f) := by
    intro l
    induction l with
    | nil => exact fun _ => rfl
    | cons e l ih =>
      intro m
      rw [List.foldl_cons, ih, mapValues_insert]
      rfl
  exact hfold l empty

end MapValues

/-! ## Keys -/

theorem mem_keys_insert {m : OrderedMap α β} {key k : α} {value : β} :
    k ∈ (m.insert key value).keys ↔ k = key ∨ k ∈ m.keys := by
  unfold insert
  split
  next h =>
    have hkeys : (replaceIn key value m.entries).map Prod.fst = m.keys := map_fst_replaceIn ..
    have hmem : key ∈ m.keys := contains_iff.1 h
    rw [keys, hkeys]
    exact ⟨.inr, fun hk => hk.elim (fun he => he ▸ hmem) id⟩
  next => simp [keys, or_comm]

theorem mem_keys_eraseAll {m : OrderedMap α β} {keys : List α} {k : α} :
    k ∈ (m.eraseAll keys).keys ↔ k ∈ m.keys ∧ k ∉ keys := by
  simp only [OrderedMap.keys, entries_eraseAll, List.mem_map, List.mem_filter, decide_eq_true_eq]
  constructor
  · rintro ⟨e, ⟨he, hk⟩, rfl⟩
    exact ⟨⟨e, he, rfl⟩, hk⟩
  · rintro ⟨⟨e, he, rfl⟩, hk⟩
    exact ⟨e, ⟨he, hk⟩, rfl⟩

/-! ## Values under keys -/

private theorem find?_replaceIn (key : α) (value : β) (entries : List (α × β)) (k : α) :
    ((replaceIn key value entries).find? (·.1 = k)).map Prod.snd =
      if k = key then (entries.find? (·.1 = k)).map fun _ => value
      else (entries.find? (·.1 = k)).map Prod.snd := by
  induction entries with
  | nil => simp [replaceIn]
  | cons e l ih =>
    simp only [replaceIn, List.map_cons, List.find?_cons] at ih ⊢
    by_cases h : e.1 = k
    · subst h
      by_cases h' : e.1 = key <;> simp [h']
    · simpa [h] using ih

private theorem find?_eq_some_iff_mem {entries : List (α × β)} {key : α} {value : β}
    (h : (entries.map Prod.fst).Nodup) :
    (entries.find? (·.1 = key)).map Prod.snd = some value ↔ (key, value) ∈ entries := by
  induction entries with
  | nil => simp
  | cons e l ih =>
    rw [List.map_cons, List.nodup_cons] at h
    rw [List.find?_cons]
    by_cases hkey : e.1 = key
    · have hrest : (key, value) ∉ l := fun hmem =>
        h.1 (List.mem_map.2 ⟨(key, value), hmem, hkey.symm⟩)
      simp [hkey, hrest, Prod.ext_iff, eq_comm]
    · simp [hkey, ih h.2, Prod.ext_iff, Ne.symm hkey]

/-- What is found under a key is its entry. -/
theorem get?_eq_some {m : OrderedMap α β} {key : α} {value : β} :
    m.get? key = some value ↔ (key, value) ∈ m.entries :=
  find?_eq_some_iff_mem m.nodup

/-- What is found after an insertion. -/
theorem get?_insert (m : OrderedMap α β) (key : α) (value : β) (k : α) :
    (m.insert key value).get? k = if k = key then some value else m.get? k := by
  unfold insert get?
  by_cases h : m.contains key
  · rw [dif_pos h]
    simp only [find?_replaceIn]
    by_cases hk : k = key
    · subst hk
      obtain ⟨e, he, hek⟩ := List.any_eq_true.1 h
      have hs : (m.entries.find? (·.1 = k)).isSome := List.find?_isSome.2 ⟨e, he, hek⟩
      obtain ⟨e', he'⟩ := Option.isSome_iff_exists.1 hs
      simp [he']
    · simp [hk]
  · rw [dif_neg h]
    simp only [List.find?_append]
    by_cases hk : k = key
    · subst hk
      have hn : m.entries.find? (·.1 = k) = none := by
        rw [List.find?_eq_none]
        intro e he hek
        exact h (List.any_eq_true.2 ⟨e, he, hek⟩)
      simp [hn]
    · have hk' : ¬ key = k := fun he => hk he.symm
      simp [hk, hk']

/-- What is found after an erasure. -/
theorem get?_erase (m : OrderedMap α β) (key k : α) :
    (m.erase key).get? k = if k = key then none else m.get? k := by
  simp only [erase, get?, List.find?_filter]
  by_cases hk : k = key
  · subst hk
    simp
  · rw [if_neg hk]
    congr 2
    funext e
    by_cases he : e.1 = k
    · simp [he, hk]
    · simp [he]

/-- What is found after several erasures. -/
theorem get?_eraseAll (m : OrderedMap α β) (keys : List α) (k : α) :
    (m.eraseAll keys).get? k = if k ∈ keys then none else m.get? k := by
  unfold eraseAll
  induction keys generalizing m with
  | nil => simp
  | cons key keys ih =>
    rw [List.foldl_cons, ih, get?_erase]
    grind

end OrderedMap

end Spreadsheet
