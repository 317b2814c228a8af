import Spreadsheet.Error

/-!
# Archives

The files of workbooks are archives. An archive ends with a record that tells how long the
directory before it is, perhaps followed by a comment. This module checks the directory of a file
that may be no archive; the entries are not looked at, so no file that passes is a workbook.

## Main definitions

* `Archive.fault` — what is wrong with a file that was not written as a workbook.
-/

namespace Spreadsheet.Archive

/-- The bytes with which the last record of an archive begins. -/
def endMark : List UInt8 :=
  [0x50, 0x4b, 5, 6]

/-- The bytes with which an entry of the directory begins. -/
def entryMark : List UInt8 :=
  [0x50, 0x4b, 1, 2]

/-- The length of the last record. -/
def endLength : Nat :=
  22

/-- The length of an entry without its name, its extra field and its comment. -/
def entryLength : Nat :=
  46

/-- The number that `count` bytes from a position on give, the lowest byte first. -/
def number (bytes : List UInt8) (position count : Nat) : Nat :=
  ((bytes.drop position).take count).foldr (fun b n => b.toNat + 256 * n) 0

/-- The last position at which a mark stands. -/
def lastPosition? (mark : List UInt8) : List UInt8 → Option Nat
  | [] => none
  | b :: bytes =>
    match lastPosition? mark bytes with
    | some n => some (n + 1)
    | none => if mark.isPrefixOf (b :: bytes) then some 0 else none

/-- The position of the last record, behind which there is room for a comment of 65535 bytes. -/
def endPosition? (bytes : List UInt8) : Option Nat :=
  let tail := bytes.length - endLength
  if bytes.length < endLength then none
  else if endMark.isPrefixOf (bytes.drop tail) && number bytes (tail + 20) 2 = 0 then some tail
  else
    let start := tail - 65536
    ((lastPosition? endMark (bytes.drop start)).map (start + ·)).filter (· ≤ tail)

/-- The fault of a directory of which as many bytes are to come as the number says. -/
def directoryFault? : Nat → List UInt8 → Option Error
  | 0, _ => none
  | size + 1, bytes =>
    if bytes.length < entryLength then some .truncatedDirectory
    else if !entryMark.isPrefixOf bytes then some .damagedDirectory
    else
      let length := entryLength + number bytes 28 2 + number bytes 30 2 + number bytes 32 2
      directoryFault? (size + 1 - length) (bytes.drop length)
termination_by size => size
decreasing_by simp only [entryLength]; omega

/-- The fault of a file that was not written as a workbook: it is no archive, or its directory is
damaged, or its entries are not those of a workbook. -/
def fault (name : String) (bytes : List UInt8) : Error :=
  match endPosition? bytes with
  | none => .notAnArchive name
  | some position =>
    let size := number bytes (position + 12) 4
    if position < size then .misplacedDirectory
    else (directoryFault? size ((bytes.drop (position - size)).take size)).getD .missingPart

end Spreadsheet.Archive
