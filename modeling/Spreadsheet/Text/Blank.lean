/-!
# Blank characters

White space in the sense of Unicode, together with the four information separators of ASCII.

## Main definitions

* `isBlank` — whether a character is white space.
* `trim` — a text without the white space at its ends.
-/

namespace Spreadsheet.Text

/-- White space: the control characters `U+0009`–`U+000D`, `U+001C`–`U+001F` and `U+0085`, and
the separators of Unicode. -/
def isBlank (c : Char) : Bool :=
  let n := c.toNat
  (0x9 ≤ n && n ≤ 0xd) || (0x1c ≤ n && n ≤ 0x20) || n == 0x85 || n == 0xa0 || n == 0x1680 ||
    (0x2000 ≤ n && n ≤ 0x200a) || n == 0x2028 || n == 0x2029 || n == 0x202f || n == 0x205f ||
    n == 0x3000

/-- The characters without leading and trailing white space. -/
def trimChars (s : List Char) : List Char :=
  ((s.dropWhile isBlank).reverse.dropWhile isBlank).reverse

/-- The text without leading and trailing white space. -/
def trim (s : String) : String :=
  String.ofList (trimChars s.toList)

/-- Whether a text consists of white space only. -/
def isBlankText (s : String) : Bool :=
  s.toList.all isBlank

end Spreadsheet.Text
