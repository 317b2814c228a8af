/-!
# Line ends

Lines end with a line feed, a carriage return, or a carriage return and a line feed.

## Main definitions

* `normalizeLines` — a text whose lines all end with a line feed.
-/

namespace Spreadsheet.Text

/-- The text with a line feed for every carriage return, and for every pair of a carriage return
and a line feed. -/
def normalizeLines : List Char → List Char
  | [] => []
  | '\r' :: '\n' :: s => '\n' :: normalizeLines s
  | c :: s => (if c = '\r' then '\n' else c) :: normalizeLines s

end Spreadsheet.Text
