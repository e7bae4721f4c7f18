import SqlText.ArrayLiteral
import SqlText.Bytea
import SqlText.Change.Fragment
import SqlText.Change.Operation
import SqlText.Change.Statement
import SqlText.Check
import SqlText.CopyField
import SqlText.Decimal.Format
import SqlText.Decimal.Layout
import SqlText.Decimal.Shortest
import SqlText.Dialect
import SqlText.Error
import SqlText.Identifier.Basic
import SqlText.Identifier.Reserved
import SqlText.JsonString
import SqlText.Literal.Basic
import SqlText.Literal.Escape
import SqlText.Proofs.Token.Lexeme
import SqlText.Row
import SqlText.Statement
import SqlText.Stored
import SqlText.Template
import SqlText.Text.Basic
import SqlText.Text.Blank
import SqlText.Text.CodeRange
import SqlText.Text.LetterCase
import SqlText.Text.LetterCase.Cased
import SqlText.Text.LetterCase.Lower
import SqlText.Text.LetterCase.Upper
import SqlText.Text.Printable
import SqlText.Text.Shown
import SqlText.Token.Basic
import SqlText.Token.Cursor
import SqlText.Token.Rule
import SqlText.Value
import SqlText.Proofs.Token.Truncation
import SqlText.Proofs.Statement.Calls
import SqlText.Proofs.Token.Locality
import SqlText.Proofs.Statement.Groups
import SqlText.Proofs.Token.Stream
import SqlText.Proofs.Token.Unquoting
import SqlText.Proofs.Change.Reading
import SqlText.Proofs.Change.Lexemes
import SqlText.Proofs.Quoting
import SqlText.Proofs.Change.Grammar
import SqlText.Proofs.Row
import SqlText.Proofs.Change.RoundTrip
import SqlText.Proofs.Change.Script
import SqlText.Proofs.Token.Folding
import SqlText.Proofs.Token.OneLiteral
import SqlText.Proofs.Change.Rebuild
import SqlText.Proofs.Statement.Resplit
import SqlText.Proofs.CopyLine
import SqlText.Proofs.ArrayLiteral
import SqlText.Proofs.Change.FirstFault
import SqlText.Proofs.Identifier
import SqlText.Proofs.Change.Merging
import SqlText.Proofs.Change.Renaming
import SqlText.Proofs.ArrayLiteral.Grammar
import SqlText.Proofs.ArrayLiteral.Offsets
import SqlText.Proofs.Template
import SqlText.Proofs.Text.Bytes
import SqlText.Proofs.Token.Octets
import SqlText.Proofs.Token.InPlace
import SqlText.Proofs.Statement.InPlace
import SqlText.Proofs.Token.Projection
import SqlText.Proofs.Token.Longest
import SqlText.Proofs.Spelling
import SqlText.Proofs.Bytea
import SqlText.Proofs.Backslash
import SqlText.Proofs.JsonString
import SqlText.Proofs.Token.DollarQuote
import SqlText.Proofs.Token.Blanks
import SqlText.Proofs.Text.Occurrence
