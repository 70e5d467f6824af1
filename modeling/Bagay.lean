import Bagay.Parser.Cursor
import Bagay.Session
import Bagay.Proofs.Spelling
import Bagay.Proofs.Parser.Routine
import Bagay.Proofs.Parser.Acceptance
import Bagay.Proofs.Parser.Lookahead
import Bagay.Proofs.Parser.Failure
import Bagay.Proofs.Parser.Viability
import Bagay.Proofs.Token.Munch
import Bagay.Proofs.Token.Lexing
import Bagay.Proofs.Token.Layout
import Bagay.Proofs.Source
import Bagay.Proofs.Token.Seam
import Bagay.Proofs.Execution
import Bagay.Proofs.Kind
import Bagay.Proofs.Machine.Failures
import Bagay.Proofs.Machine.Batch
import Bagay.Proofs.Machine.Atomicity
import Bagay.Proofs.FreeNames
import Bagay.Proofs.Cursor.Calls
import Bagay.Proofs.Session.Interleaving
import Bagay.Proofs.Machine.Log
import Bagay.Proofs.Chain
import Bagay.Proofs.Token.Concatenation
import Bagay.Proofs.Token.Quotes
import Bagay.Proofs.Effect
import Bagay.Proofs.Leaves
import Bagay.Proofs.Postorder
import Bagay.Proofs.Parser.Completed
import Bagay.Proofs.Token.LineBreaks
import Bagay.Proofs.Machine.Semicolons
import Bagay.Proofs.Machine.StrayCharacters
import Bagay.Proofs.Cursor.Violations
import Bagay.Proofs.Decimal.Packing
import Bagay.Proofs.Decimal.Integers
import Bagay.Proofs.Machine.Calculations
import Bagay.Proofs.Decimal.Intervals
import Bagay.Proofs.Decimal.Reading
import Bagay.Proofs.Text.SelfDelimiting
import Bagay.Proofs.Machine.Listing
