import Bagay.Node
import Bagay.Parser
import Bagay.Token.Lexeme

/-!
# Log records

The stages of a run note what they do: the lexer a string literal without its closing quote, the
parser a missing semicolon, the run itself the tokens and the statements if it is asked to, and the
machine each statement that it starts.

* `Record.stage`, `Record.level`, `Record.message`: who notes it, how much it matters, the wording.
* `Record.atLeast`: the records at or above a level.
* `lexRecords`, `Outcome.records`: what the lexer and the parser note.
-/

namespace Bagay

/-- Who makes records. -/
inductive Stage
  | lexer
  | parser
  | run
  | machine
  deriving DecidableEq, Repr

/-- How much a record matters. -/
inductive Level
  | debug
  | info
  | warning
  | error
  deriving DecidableEq, Repr

/-- The place of a level in their order. -/
def Level.rank : Level → Nat
  | debug => 0
  | info => 1
  | warning => 2
  | error => 3

/-- The records of a run. -/
inductive Record
  /-- A string literal ran to the end of the source. -/
  | unterminatedString
  /-- A statement ended without a semicolon. -/
  | missingSemicolon
  /-- The tokens of a source. -/
  | tokens (ts : List Token)
  /-- The statements of a source. -/
  | program (ss : List Stmt)
  /-- A statement is about to be executed. -/
  | executing (n : Node)
  deriving DecidableEq, Repr

namespace Record

/-- The stage that makes a record. -/
def stage : Record → Stage
  | unterminatedString => .lexer
  | missingSemicolon => .parser
  | tokens _ => .run
  | program _ => .run
  | executing _ => .machine

/-- The level of a record. -/
def level : Record → Level
  | unterminatedString => .warning
  | missingSemicolon => .warning
  | tokens _ => .info
  | program _ => .info
  | executing _ => .debug

/-- The message of a record. -/
def message : Record → String
  | unterminatedString => "Unterminated string literal absorbed to end of input"
  | missingSemicolon => "Semicolon not found at the end of the statement."
  | tokens ts => "Tokens: " ++ Text.bracketed (ts.map Token.written)
  | program ss => "AST: " ++ Text.bracketed (ss.map fun s => s.toNode.written)
  | executing n => "Executing " ++ n.written

/-- The records at or above a level. -/
def atLeast (l : Level) (rs : List Record) : List Record :=
  rs.filter fun r => l.rank ≤ r.level.rank

end Record

/-! ### The records of the first stages -/

/-- The record of a source whose last string literal is not closed. -/
def lexRecords (source : String) : List Record :=
  if isUnterminated source then [.unterminatedString] else []

/-- The records of a parse: one for each missing semicolon. -/
def Outcome.records {σ α : Type} (o : Outcome σ α) : List Record :=
  List.replicate o.missing .missingSemicolon

end Bagay
