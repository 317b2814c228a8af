import Spreadsheet.Proofs.Decimal.Numeral
import Spreadsheet.Proofs.Text.Letter
import Spreadsheet.Proofs.Xml.Text
import Spreadsheet.Xml.Layout

/-!
# Cutting what is written

The parts into which the written form of a tag or of a text is cut, whatever follows it. Tags end by
themselves; a text must be followed by a tag.

## Main definitions

* `Xml.Cut` — how a document is cut.
* `Xml.Cuts` — how a text is cut, whatever follows it.
* `Xml.IsPlainName` — names that need no rules.

## Main statements

* `Xml.Cut.markup_eq` — the parts of a document that is cut.
* `Xml.cuts_emptyTag`, `Xml.cuts_startTag`, `Xml.cuts_endTag`, `Xml.Cuts.data` — tags and texts.
-/

namespace Spreadsheet.Xml

variable {s s' rest name : List Char} {m : Markup} {parts parts' : List Markup}

/-! ## Documents that are cut -/

/-- How a document is cut: every part takes up at least one character. -/
inductive Cut : List Char → List Markup → Prop
  | nil : Cut [] []
  | cons {s rest : List Char} {m : Markup} {parts : List Markup}
    (h : takeMarkup? s = some (m, rest)) (hlt : rest.length < s.length) (hrest : Cut rest parts) : Cut s (m :: parts)

theorem Cut.markup_eq (h : Cut s parts) : markup s = some parts := by
  have hupTo : ∀ n, s.length ≤ n → markupUpTo n s = some parts := by
    induction h with
    | nil => intro n _; cases n <;> rfl
    | @cons s rest m parts h hlt hrest ih =>
      intro n hn
      obtain ⟨n, rfl⟩ := Nat.exists_eq_add_of_le' (show 1 ≤ n by omega)
      obtain ⟨c, s, rfl⟩ := List.exists_cons_of_length_pos (show 0 < s.length by omega)
      have hparts := ih n (by omega)
      simp [markupUpTo, h, hparts]
  exact hupTo s.length (Nat.le_refl _)

/-- How a text is cut, whatever follows it. -/
def Cuts (s : List Char) (parts : List Markup) : Prop :=
  ∀ rest later, Cut rest later → Cut (s ++ rest) (parts ++ later)

theorem Cuts.nil : Cuts [] [] :=
  fun _ _ h => h

theorem Cuts.append (h : Cuts s parts) (h' : Cuts s' parts') :
    Cuts (s ++ s') (parts ++ parts') := by
  intro rest later hrest
  rw [List.append_assoc, List.append_assoc]
  exact h _ _ (h' _ _ hrest)

theorem Cuts.cut (h : Cuts s parts) : Cut s parts := by
  simpa using h [] [] .nil

theorem length_lt_append (hne : s ≠ []) (rest : List Char) : rest.length < (s ++ rest).length := by
  simpa [List.length_pos_iff] using hne

theorem Cuts.single (hne : s ≠ []) (h : ∀ rest, takeMarkup? (s ++ rest) = some (m, rest)) :
    Cuts s [m] := by
  intro rest later hrest
  exact .cons (h rest) (length_lt_append hne rest) hrest

/-- A text that is followed by a tag is a part. -/
theorem Cuts.data (hne : s ≠ []) (hs : '<' ∉ s) (h : Cuts s' parts) (htag : s'.head? = some '<') :
    Cuts (s ++ s') (.data s :: parts) := by
  intro rest later hrest
  obtain ⟨tag, rfl⟩ := List.head?_eq_some_iff.1 htag
  have hplain : ∀ c ∈ s, decide (c ≠ '<') := by
    intro c hc
    rw [decide_eq_true_eq]
    rintro rfl
    exact hs hc
  have hstop : ∀ c ∈ ('<' :: tag ++ rest).head?, decide (c ≠ '<') = false := by simp
  have htake : takeMarkup? (s ++ ('<' :: tag ++ rest)) = some (.data s, '<' :: tag ++ rest) := by
    have hdata : takeMarkup? (s ++ ('<' :: tag ++ rest)) =
        some (.data ((s ++ ('<' :: tag ++ rest)).takeWhile (· ≠ '<')),
          (s ++ ('<' :: tag ++ rest)).dropWhile (· ≠ '<')) := by
      obtain ⟨c, s, rfl⟩ := List.exists_cons_of_ne_nil hne
      have hc : c ≠ '<' := by
        rintro rfl
        exact hs List.mem_cons_self
      unfold takeMarkup?
      split <;> simp_all
    rw [hdata, takeWhile_append_of_stop hplain hstop, dropWhile_append_of_stop hplain hstop]
  rw [List.append_assoc]
  exact .cons htake (length_lt_append hne _) (h _ _ hrest)

/-! ## Tags -/

/-- Whether a name consists of letters of ASCII. -/
def IsPlainName (name : List Char) : Prop :=
  name ≠ [] ∧ ∀ c ∈ name, c.isAlpha

instance (name : List Char) : Decidable (IsPlainName name) :=
  decidable_of_iff (name ≠ [] ∧ name.all Char.isAlpha) (by rw [List.all_eq_true, IsPlainName])

theorem isNameStart_of_isAlpha {c : Char} (h : c.isAlpha) : isNameStart c := by
  rw [isAlpha_iff] at h
  rw [isNameStart, inRanges, List.any_eq_true]
  obtain h | h := h
  · exact ⟨(0x41, 0x5a), by decide, by simpa using h⟩
  · exact ⟨(0x61, 0x7a), by decide, by simpa using h⟩

/-- A name is taken as a whole if what follows is neither part of a name nor a colon. -/
theorem takeQName?_append (hname : IsPlainName name)
    (hrest : ∀ c ∈ rest.head?, isNameChar c = false ∧ c ≠ ':') :
    takeQName? (name ++ rest) = some (⟨none, name⟩, rest) := by
  obtain ⟨hne, halpha⟩ := hname
  have hnameChar : ∀ c ∈ name, isNameChar c := fun c hc => by
    rw [isNameChar, isNameStart_of_isAlpha (halpha c hc), Bool.true_or]
  have htake : takeName? (name ++ rest) = some (name, rest) := by
    obtain ⟨c, name, rfl⟩ := List.exists_cons_of_ne_nil hne
    have htail : ∀ c ∈ name, isNameChar c := fun c hc => hnameChar c (List.mem_cons_of_mem _ hc)
    have hstop : ∀ c ∈ rest.head?, isNameChar c = false := fun c hc => (hrest c hc).1
    rw [List.cons_append, takeName?, if_pos (isNameStart_of_isAlpha (halpha c List.mem_cons_self)),
      takeWhile_append_of_stop htail hstop, dropWhile_append_of_stop htail hstop]
  rw [takeQName?, htake]
  simp only [Option.bind_eq_bind, Option.bind_some]
  split
  next s => exact absurd rfl (hrest ':' rfl).2
  next => rfl

theorem splitTag?_append {tag : List Char} (htag : ∀ c ∈ tag, c ≠ '>' ∧ c ≠ '"' ∧ c ≠ '\'') :
    splitTag? none (tag ++ '>' :: rest) = some (tag, rest) := by
  induction tag with
  | nil => rfl
  | cons c tag ih =>
    obtain ⟨⟨hend, hdouble, hsingle⟩, htag⟩ := List.forall_mem_cons.1 htag
    simp [splitTag?, hend, hdouble, hsingle, ih htag]

theorem IsPlainName.ne_mark (hname : IsPlainName name) :
    ∀ c ∈ name, c ≠ '>' ∧ c ≠ '"' ∧ c ≠ '\'' := by
  intro c hc
  have halpha := hname.2 c hc
  refine ⟨?_, ?_, ?_⟩ <;> rintro rfl <;> simp at halpha

theorem takeMarkup?_start (hname : IsPlainName name) :
    takeMarkup? ('<' :: (name ++ rest)) = takeStart? (name ++ rest) := by
  obtain ⟨c, name, rfl⟩ := List.exists_cons_of_ne_nil hname.1
  have halpha := hname.2 c List.mem_cons_self
  have hslash : c ≠ '/' := by rintro rfl; simp at halpha
  have hbang : c ≠ '!' := by rintro rfl; simp at halpha
  have hquestion : c ≠ '?' := by rintro rfl; simp at halpha
  unfold takeMarkup?
  split <;> simp_all

theorem cuts_startTag (hname : IsPlainName name) :
    Cuts ('<' :: name ++ ['>']) [.start ⟨none, name⟩ [] false] := by
  refine .single (by simp) fun rest => ?_
  have hsplit : splitTag? none (name ++ '>' :: rest) = some (name, rest) :=
    splitTag?_append hname.ne_mark
  have hqname : takeQName? (name ++ []) = some (⟨none, name⟩, []) :=
    takeQName?_append hname (by simp)
  rw [List.append_nil] at hqname
  rw [List.append_assoc, List.cons_append, List.singleton_append, takeMarkup?_start hname,
    takeStart?, hsplit]
  simp [hqname, attributes?]

theorem cuts_emptyTag {name : String} (hname : IsPlainName name.toList) :
    Cuts (emptyTag name) [.start ⟨none, name.toList⟩ [] true] := by
  refine .single (by simp [emptyTag]) fun rest => ?_
  have hsplit : splitTag? none (name.toList ++ [' ', '/'] ++ '>' :: rest) =
      some (name.toList ++ [' ', '/'], rest) := by
    refine splitTag?_append fun c hc => ?_
    obtain hc | hc := List.mem_append.1 hc
    · exact hname.ne_mark c hc
    · simp only [List.mem_cons, List.not_mem_nil, or_false] at hc
      obtain rfl | rfl := hc <;> decide
  have hqname : takeQName? (name.toList ++ [' ', '/']) = some (⟨none, name.toList⟩, [' ', '/']) :=
    takeQName?_append hname (by simpa using by decide +kernel)
  have htag : emptyTag name ++ rest = '<' :: (name.toList ++ ([' ', '/'] ++ '>' :: rest)) := by
    simp [emptyTag]
  rw [htag, takeMarkup?_start hname, takeStart?, ← List.append_assoc, hsplit]
  simp only [Option.bind_eq_bind, Option.bind_some, hqname]
  rfl

theorem cuts_endTag (hname : IsPlainName name) :
    Cuts ('<' :: '/' :: name ++ ['>']) [.finish ⟨none, name⟩] := by
  refine .single (by simp) fun rest => ?_
  have hqname : takeQName? (name ++ '>' :: rest) = some (⟨none, name⟩, '>' :: rest) :=
    takeQName?_append hname (by simpa using by decide +kernel)
  rw [List.append_assoc, List.cons_append, List.cons_append, List.singleton_append]
  show takeFinish? (name ++ '>' :: rest) = _
  rw [takeFinish?, hqname]
  rfl

end Spreadsheet.Xml
