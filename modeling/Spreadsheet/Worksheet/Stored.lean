import Spreadsheet.Text.LineEnd
import Spreadsheet.Worksheet.Basic
import Spreadsheet.Xml.Text

/-!
# Stored worksheets

What is left of a worksheet that was written to a file and read again. Numbers are stored in
binary floating point, with sixteen digits. A text of digits without point and exponent is read as
an integer, any other number as a floating-point number. Numbers beyond the range of floating
point leave an empty cell. Texts are stored as documents, so their line ends become line feeds, and
a file with a character that no document may hold cannot be read.

## Main definitions

* `Value.stored` — what is read for a value that was written.
* `Worksheet.stored` — what is read for a worksheet that was written.
-/

namespace Spreadsheet

/-- A number without a fraction as an integer. -/
def Decimal.toInt (d : Decimal) : Int :=
  d.signedAt 0

/-- What is read for a floating-point number that was written. -/
def Binary64.stored : Binary64 → Value
  | .finite negative m e =>
    if m = 0 then .integer 0
    else
      let d := sixteenDigits negative m e
      if layout.isPositional d.adjusted ∧ 0 ≤ d.exponent then .integer d.toInt
      else .floating (.ofDecimal d)
  | .infinite _ | .undefined => .empty

/-- What is read for a number that was written. -/
def Number.stored : Number → Value
  | .finite d => (Binary64.ofDecimal d).stored
  | .infinite _ | .nan _ _ _ => .empty

/-- What is read for a value that was written. -/
def Value.stored : Value → Value
  | .number n => n.stored
  | .floating x => x.stored
  | .text s => .text (String.ofList (Text.normalizeLines s.toList))
  | v => v

/-- Whether a value can be read again once it was written. -/
def Value.isStorable : Value → Bool
  | .text s => s.toList.all Xml.isAllowed
  | _ => true

/-- What is read for a worksheet that was written. -/
def Worksheet.stored (w : Worksheet) : Except Error Worksheet :=
  if w.values.entries.all fun e => e.2.isStorable then
    .ok { w with values := w.values.mapValues Value.stored }
  else .error .unreadableWorksheet

end Spreadsheet
