import Spreadsheet.Sheet.Display
import Spreadsheet.Sheet.Folder
import Spreadsheet.Proofs.Cell.Name
import Spreadsheet.Proofs.Cell.Position
import Spreadsheet.Proofs.Cell.Spelling
import Spreadsheet.Proofs.Csv.LineEnd
import Spreadsheet.Proofs.Csv.RoundTrip
import Spreadsheet.Proofs.Decimal.Display
import Spreadsheet.Proofs.Decimal.Fit
import Spreadsheet.Proofs.Decimal.Literal
import Spreadsheet.Proofs.Decimal.Magnitude
import Spreadsheet.Proofs.Decimal.Nearest
import Spreadsheet.Proofs.Decimal.Notation
import Spreadsheet.Proofs.Decimal.Numeral
import Spreadsheet.Proofs.Decimal.Order
import Spreadsheet.Proofs.Decimal.PlainLength
import Spreadsheet.Proofs.Decimal.Quotient
import Spreadsheet.Proofs.Decimal.Rational
import Spreadsheet.Proofs.Decimal.Remainder
import Spreadsheet.Proofs.Decimal.Rounding
import Spreadsheet.Proofs.Decimal.Sum
import Spreadsheet.Proofs.Formula.Acceptance
import Spreadsheet.Proofs.Formula.Alternation
import Spreadsheet.Proofs.Formula.Balance
import Spreadsheet.Proofs.Formula.Cells
import Spreadsheet.Proofs.Formula.Commas
import Spreadsheet.Proofs.Formula.Comparison
import Spreadsheet.Proofs.Formula.Conversion
import Spreadsheet.Proofs.Formula.Division
import Spreadsheet.Proofs.Formula.Effects
import Spreadsheet.Proofs.Formula.Expression
import Spreadsheet.Proofs.Formula.Grammar
import Spreadsheet.Proofs.Formula.GroupOperand
import Spreadsheet.Proofs.Formula.Groups
import Spreadsheet.Proofs.Formula.Instructions
import Spreadsheet.Proofs.Formula.LeadingEquals
import Spreadsheet.Proofs.Formula.LetterCase
import Spreadsheet.Proofs.Formula.Lexeme
import Spreadsheet.Proofs.Formula.Lexer
import Spreadsheet.Proofs.Formula.LookupOrder
import Spreadsheet.Proofs.Formula.Lookups
import Spreadsheet.Proofs.Formula.Machine
import Spreadsheet.Proofs.Formula.Mismatch
import Spreadsheet.Proofs.Formula.Operands
import Spreadsheet.Proofs.Formula.Outcomes
import Spreadsheet.Proofs.Formula.Postorder
import Spreadsheet.Proofs.Formula.Regular
import Spreadsheet.Proofs.Formula.Spelling
import Spreadsheet.Proofs.Formula.Tiling
import Spreadsheet.Proofs.Formula.Traced
import Spreadsheet.Proofs.Grid.Acyclic
import Spreadsheet.Proofs.Grid.ChainLimit
import Spreadsheet.Proofs.Grid.Dependence
import Spreadsheet.Proofs.Grid.Equations
import Spreadsheet.Proofs.Grid.Literals
import Spreadsheet.Proofs.Grid.LoneReference
import Spreadsheet.Proofs.Grid.Outcomes
import Spreadsheet.Proofs.Grid.Pasting
import Spreadsheet.Proofs.Grid.Paths
import Spreadsheet.Proofs.Grid.References
import Spreadsheet.Proofs.Sheet.Csv
import Spreadsheet.Proofs.Sheet.Deletion
import Spreadsheet.Proofs.Sheet.Edit
import Spreadsheet.Proofs.Sheet.Folder
import Spreadsheet.Proofs.Sheet.Names
import Spreadsheet.Proofs.Sheet.Reload
import Spreadsheet.Proofs.Sheet.Unsaved
import Spreadsheet.Proofs.Sheet.Workbook
import Spreadsheet.Proofs.Sheet.Xml
import Spreadsheet.Proofs.Text.Integer
import Spreadsheet.Proofs.Text.Letter
import Spreadsheet.Proofs.Text.LineEnd
import Spreadsheet.Proofs.Text.Uppercase
import Spreadsheet.Proofs.Worksheet.Agreement
import Spreadsheet.Proofs.Worksheet.Extent
import Spreadsheet.Proofs.Worksheet.Looking
import Spreadsheet.Proofs.Xml.Element
import Spreadsheet.Proofs.Xml.LineEnd
import Spreadsheet.Proofs.Xml.Markup
import Spreadsheet.Proofs.Xml.Text
import Spreadsheet.Proofs.Decimal.RoundTrip
import Spreadsheet.Proofs.Sheet.Border
import Spreadsheet.Proofs.Csv.Limits
import Spreadsheet.Proofs.Sheet.Records
import Spreadsheet.Proofs.Text.Trim
import Spreadsheet.Proofs.Xml.Characters
import Spreadsheet.Proofs.Sheet.Loaded
import Spreadsheet.Proofs.Formula.Rearrangement
import Spreadsheet.Proofs.Sheet.Coordinates
import Spreadsheet.Proofs.Sheet.Extent
import Spreadsheet.Proofs.Sheet.Display
