import Mathlib.Data.List.Flatten
import Mathlib.Data.List.Forall2
import Spreadsheet.Proofs.Text.LineEnd
import Spreadsheet.Proofs.Xml.Markup

/-!
# Reading elements that are written

The written form of an element is read as the element, wherever it stands: as the root of a document
or as a child of another element. Lines are broken only between elements, so a break is text of the
element around them and of none of those that hold text.

## Main definitions

* `Xml.Progress.Expects` — the places where an element may stand.
* `Xml.Writes` — the written forms of an element.
* `Xml.IsClean` — texts whose characters a document may hold and keeps.

## Main statements

* `Xml.writes_leaf`, `Xml.exists_writes_group` — what elements of text and of elements are read as.
* `Xml.read?_document` — the root of a document that is written.
-/

namespace Spreadsheet.Xml

variable {s root : List Char} {e : Element} {f : Frame} {outer : List Frame} {p : Progress}
  {name text : String} {elements : List (List Char)} {es : List Element}

/-! ## Steps -/

/-- The places where an element may stand, with the elements around it, in which no names of
namespaces have been declared. -/
inductive Progress.Expects : Progress → List Frame → Prop
  | root : Expects .before []
  | child {f : Frame} {outer : List Frame} (h : f.scope = .initial) :
    Expects (.inside f outer) (f :: outer)

/-- An element of which only the start tag has been read. -/
def Frame.opened (name : String) : Frame :=
  ⟨⟨none, name.toList⟩, .initial, [], []⟩

theorem step?_startTag (h : p.Expects outer) :
    p.step? (.start ⟨none, name.toList⟩ [] false) = some (.inside (.opened name) outer) := by
  cases h with
  | root => rfl
  | child h =>
    rw [Progress.step?, h]
    rfl

theorem step?_emptyTag (h : p.Expects outer) :
    p.step? (.start ⟨none, name.toList⟩ [] true) =
      some (.complete (.node name "" []) outer) := by
  have helement : (Frame.opened name).element = .node name "" [] := by
    simp [Frame.opened, Frame.element]
  rw [← helement]
  cases h with
  | root => rfl
  | child h =>
    rw [Progress.step?, h]
    rfl

/-- A text that is written is added as it is. -/
theorem step?_data (f : Frame) (outer : List Frame) (s : List Char) :
    (Progress.inside f outer).step? (.data (escape s)) = some (.inside (f.addText s) outer) := by
  rw [Progress.step?, if_pos (isContent_escape s), unescape_escape]
  rfl

theorem exists_addText (f : Frame) (s : List Char) : ∃ text, f.addText s = { f with text } := by
  unfold Frame.addText
  split
  · exact ⟨_, rfl⟩
  · exact ⟨f.text, rfl⟩

theorem escape_newLine (level : Nat) : escape (newLine level) = newLine level := by
  have hself : ∀ c ∈ newLine level, escapeChar c = [c] := by
    intro c hc
    obtain rfl | hc := List.mem_cons.1 hc
    · rfl
    · rw [List.eq_of_mem_replicate hc]
      rfl
  rw [escape, List.flatMap_congr hself]
  simp

/-! ## Elements -/

/-- Whether a text is a written form of an element: it begins with a tag, and wherever an element
may stand, the parts into which it is cut add the element. -/
structure Writes (s : List Char) (e : Element) : Prop where
  tag : s.head? = some '<'
  parts : ∃ parts, Cuts s parts ∧ ∀ p outer, Progress.Expects p outer →
    parts.foldlM Progress.step? p = some (.complete e outer)

theorem writes_emptyTag (hname : IsPlainName name.toList) :
    Writes (emptyTag name) (.node name "" []) := by
  refine ⟨rfl, _, cuts_emptyTag hname, fun p outer hp => ?_⟩
  rw [List.foldlM_cons, step?_emptyTag hp]
  rfl

/-- Between its tags an element is built from what its content adds to it. -/
theorem writes_between (parts : List Markup) {content : List Char} (hname : IsPlainName name.toList)
    (hcuts : ∀ tag closing, Cuts tag closing → tag.head? = some '<' →
      Cuts (content ++ tag) (parts ++ closing))
    (htag : f.tag = ⟨none, name.toList⟩)
    (hparts : ∀ outer, parts.foldlM Progress.step? (.inside (.opened name) outer) =
      some (.inside f outer)) : Writes (between name content) f.element := by
  have hsplit : between name content =
      ('<' :: name.toList ++ ['>']) ++ (content ++ ('<' :: '/' :: name.toList ++ ['>'])) := by
    simp [between]
  refine ⟨by simp [between], .start ⟨none, name.toList⟩ [] false ::
    (parts ++ [.finish ⟨none, name.toList⟩]), ?_, fun p outer hp => ?_⟩
  · rw [hsplit]
    exact (cuts_startTag hname).append (hcuts _ _ (cuts_endTag hname) rfl)
  · rw [List.foldlM_cons, step?_startTag hp, Option.bind_eq_bind,
      Option.bind_some, List.foldlM_append, hparts, Option.bind_eq_bind, Option.bind_some,
      List.foldlM_cons, Progress.step?, if_pos htag.symm]
    rfl

/-- An element with text is read as the element. -/
theorem writes_leaf (hname : IsPlainName name.toList) (text : String) :
    Writes (leaf name text) (.node name text []) := by
  unfold leaf
  split
  next hempty =>
    subst hempty
    exact writes_emptyTag hname
  next hfilled =>
    have helement : ((Frame.opened name).addText text.toList).element = .node name text [] := by
      simp [Frame.opened, Frame.addText, Frame.element]
    have hne : escape text.toList ≠ [] := escape_ne_nil (by simpa using hfilled)
    rw [← helement]
    refine writes_between [.data (escape text.toList)] hname
      (fun tag closing htag hhead => .data hne (notMem_escape _).1 htag hhead) rfl fun outer => ?_
    rw [List.foldlM_cons, step?_data]
    rfl

/-- Elements on lines of their own are children in their order. -/
theorem exists_parts_of_lines (h : List.Forall₂ Writes elements es) (level : Nat) :
    ∃ parts, Cuts (elements.flatMap (newLine level ++ ·)) parts ∧
      ∀ f : Frame, f.scope = Scope.initial → ∃ text, ∀ outer,
        parts.foldlM Progress.step? (.inside f outer) =
          some (.inside { f with text, children := es.reverse ++ f.children } outer) := by
  induction h with
  | nil => exact ⟨[], .nil, fun f _ => ⟨f.text, fun _ => rfl⟩⟩
  | @cons s e elements es hs hrest ih =>
    obtain ⟨htag, parts, hcuts, hparts⟩ := hs
    obtain ⟨later, hlater, hfold⟩ := ih
    have hline : Cuts (newLine level ++ s) (.data (newLine level) :: parts) :=
      .data (by simp [newLine]) (escape_newLine level ▸ (notMem_escape _).1) hcuts htag
    refine ⟨_, hline.append hlater, fun f hf => ?_⟩
    obtain ⟨text, htext⟩ := exists_addText f (newLine level)
    obtain ⟨text', hfold⟩ := hfold (Frame.addChild { f with text } e) hf
    refine ⟨text', fun outer => ?_⟩
    have hbreak : (Progress.inside f outer).step? (.data (newLine level)) =
        some (.inside { f with text } outer) := by
      rw [← htext, ← step?_data, escape_newLine]
    have hplace : Progress.Expects (.inside { f with text } outer) ({ f with text } :: outer) :=
      .child hf
    rw [List.cons_append, List.foldlM_cons, hbreak, Option.bind_eq_bind, Option.bind_some,
      List.foldlM_append, hparts _ _ hplace, Option.bind_eq_bind, Option.bind_some]
    refine (hfold outer).trans ?_
    simp [Frame.addChild]

/-- An element with elements in it is read as an element with these children. -/
theorem exists_writes_group (hname : IsPlainName name.toList) (h : List.Forall₂ Writes elements es)
    (level : Nat) : ∃ text, Writes (group level name elements) (.node name text es) := by
  unfold group
  split
  next hempty =>
    obtain rfl := List.isEmpty_iff.1 hempty
    cases h
    exact ⟨"", writes_emptyTag hname⟩
  next =>
    obtain ⟨parts, hcuts, hparts⟩ := exists_parts_of_lines h (level + 1)
    obtain ⟨text, htext⟩ := hparts (.opened name) rfl
    let f : Frame := { Frame.opened name with text, children := es.reverse ++ [] }
    obtain ⟨text', htext'⟩ := exists_addText f (newLine level)
    have helement : (f.addText (newLine level)).element =
        .node name (String.ofList text'.reverse) es := by
      rw [htext']
      simp [f, Frame.opened, Frame.element]
    refine ⟨String.ofList text'.reverse, helement ▸ ?_⟩
    refine writes_between (parts ++ [.data (newLine level)]) hname ?_ (by rw [htext']; rfl) ?_
    · intro tag closing htag hhead
      rw [List.append_assoc, List.append_assoc]
      exact hcuts.append
        (.data (by simp [newLine]) (escape_newLine level ▸ (notMem_escape _).1) htag hhead)
    · intro outer
      have hbreak : (Progress.inside f outer).step? (.data (newLine level)) =
          some (.inside (f.addText (newLine level)) outer) := by
        rw [← step?_data, escape_newLine]
      rw [List.foldlM_append, htext outer, Option.bind_eq_bind, Option.bind_some, List.foldlM_cons]
      exact congrArg (· >>= fun p => List.foldlM Progress.step? p []) hbreak

/-! ## Documents -/

/-- Texts of characters that a document may hold, other than the carriage return, which would become
a line feed. -/
def IsClean (s : List Char) : Prop :=
  ∀ c ∈ s, isAllowed c ∧ c ≠ '\r'

instance (s : List Char) : Decidable (IsClean s) :=
  decidable_of_iff (s.all fun c => isAllowed c && c ≠ '\r') (by simp [IsClean])

theorem IsClean.append {s' : List Char} (h : IsClean s) (h' : IsClean s') : IsClean (s ++ s') :=
  fun c hc => (List.mem_append.1 hc).elim (h c) (h' c)

/-- A text of characters that are kept is read as it is. -/
theorem IsClean.normalizes (h : IsClean s) : Text.Normalizes s s :=
  Text.normalizes_self fun hreturn => (h _ hreturn).2 rfl

theorem isAllowed_of_ascii {c : Char} (h : 0x20 ≤ c.toNat ∧ c.toNat < 0x80) :
    isAllowed c ∧ c ≠ '\r' := by
  refine ⟨?_, ?_⟩
  · simp only [isAllowed, Bool.or_eq_true, Bool.and_eq_true, beq_iff_eq, decide_eq_true_eq]
    omega
  · rintro rfl
    exact absurd h (by decide)

theorem isClean_of_ascii (h : ∀ c ∈ s, 0x20 ≤ c.toNat ∧ c.toNat < 0x80) : IsClean s :=
  fun c hc => isAllowed_of_ascii (h c hc)

theorem IsPlainName.isClean (h : IsPlainName s) : IsClean s := by
  refine isClean_of_ascii fun c hc => ?_
  have halpha := isAlpha_iff.1 (h.2 c hc)
  omega

theorem isClean_escape (h : IsClean s) : IsClean (escape s) := by
  intro c hc
  obtain hc | hc := mem_escape hc
  · exact h c hc
  · exact (show IsClean "&ltgamp;".toList by decide) c hc

theorem isClean_newLine (level : Nat) : IsClean (newLine level) := by
  intro c hc
  obtain rfl | hc := List.mem_cons.1 hc
  · decide
  · rw [List.eq_of_mem_replicate hc]
    decide

theorem isClean_emptyTag (hname : IsPlainName name.toList) : IsClean (emptyTag name) :=
  (IsClean.append (s := ['<']) (by decide) hname.isClean).append
    (by decide)

theorem isClean_between {content : List Char} (hname : IsPlainName name.toList)
    (h : IsClean content) : IsClean (between name content) := by
  have hname := hname.isClean
  have hmarks : IsClean ['<'] ∧ IsClean ['>'] ∧ IsClean ['<', '/'] := by
    decide
  have hparts := (((hmarks.1.append hname).append (hmarks.2.1.append h)).append
    (hmarks.2.2.append hname)).append hmarks.2.1
  simpa [between] using hparts

theorem isClean_leaf (hname : IsPlainName name.toList) (h : IsClean text.toList) :
    IsClean (leaf name text) := by
  unfold leaf
  split
  · exact isClean_emptyTag hname
  · exact isClean_between hname (isClean_escape h)

theorem isClean_group {level : Nat} (hname : IsPlainName name.toList)
    (h : ∀ s ∈ elements, IsClean s) : IsClean (group level name elements) := by
  unfold group
  split
  · exact isClean_emptyTag hname
  · refine isClean_between hname (IsClean.append (fun c hc => ?_) (isClean_newLine level))
    obtain ⟨s, hs, hc⟩ := List.mem_flatMap.1 hc
    exact (isClean_newLine _).append (h s hs) c hc

theorem skipDeclaration?_declaration (s : List Char) :
    skipDeclaration? (declaration ++ s) = some ('\n' :: s) := by
  rfl

/-- The root of a document that is written, if its characters are kept. -/
theorem read?_document (h : Writes root e) (hclean : IsClean root) :
    read? (document root) = some e := by
  obtain ⟨htag, parts, hcuts, hparts⟩ := h
  have hclean : IsClean (declaration ++ root) :=
    IsClean.append (show IsClean declaration by decide +kernel) hclean
  have hlines : Text.normalizeLines (declaration ++ root) = declaration ++ root :=
    hclean.normalizes.normalizeLines_eq
  have hmark : skipByteOrderMark (declaration ++ root) = declaration ++ root := by
    rfl
  have hall : (declaration ++ root).all isAllowed := by
    rw [List.all_eq_true]
    exact fun c hc => (hclean c hc).1
  have hbreak : Cuts ('\n' :: root) (.data ['\n'] :: parts) :=
    .data (s := ['\n']) (by simp) (by decide) hcuts htag
  have hread : (Markup.data ['\n'] :: parts).foldlM Progress.step? .before = some (.after e) :=
    hparts .before [] .root
  rw [read?, document, String.toList_ofList, hlines]
  simp only [hmark, hall, if_true, skipDeclaration?_declaration]
  simp only [Option.bind_eq_bind, Option.bind_some, hbreak.cut.markup_eq, hread]
  rfl

end Spreadsheet.Xml
