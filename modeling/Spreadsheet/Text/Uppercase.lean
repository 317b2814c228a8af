import Spreadsheet.Text.Uppercase.Mapping

/-!
# Upper case

The full upper-case mapping of Unicode: a character may expand to several characters, as `ß` does
to `SS`.

## Main definitions

* `upperChar` — the upper case of a character, as a list.
* `upper` — the upper case of a text.
-/

namespace Spreadsheet.Text

/-- The upper case of a character. -/
def upperChar (c : Char) : List Char :=
  if c.toNat < 0x80 then
    [if 'a' ≤ c ∧ c ≤ 'z' then Char.ofNat (c.toNat - 32) else c]
  else
    match Uppercase.runs.findSome? fun r => r.map? c.toNat with
    | some n => [Char.ofNat n]
    | none =>
      match Uppercase.expansions.lookup c.toNat with
      | some ns => ns.map Char.ofNat
      | none => [c]

/-- The upper case of a text. -/
def upper (s : String) : String :=
  String.ofList (s.toList.flatMap upperChar)

end Spreadsheet.Text
