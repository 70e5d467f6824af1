import Bagay.Token

/-!
# Errors of parsing

Parsing stops at the first token that no program could have there, or at a number whose text cannot
be read. A message names the token found, or the end of the input, and the file.

* `ParseError.message`: the wording.
-/

namespace Bagay

/-- Why parsing fails. -/
inductive ParseError
  /-- Neither a statement nor an operand starts with the token found; `none` is the end. -/
  | unexpected (found : Option Token)
  /-- The token found is not what the message asks for. -/
  | refused (message : String) (found : Option Token)
  /-- The text of a number cannot be read. -/
  | badNumber (text : String)
  /-- A statement is asked for after the last token. -/
  | noStatement
  deriving DecidableEq, Repr

namespace ParseError

/-- How a message names the token found. -/
def describe : Option Token → String
  | none => "end of input"
  | some t => "'" ++ t.text ++ "'"

/-- The end of a message: the file, where an unknown one is `None`. -/
def place (file : Option String) : String :=
  " in " ++ file.getD "None"

/-- The message of an error in a file. -/
def message (file : Option String) : ParseError → String
  | unexpected found => "Unexpected token " ++ describe found ++ place file
  | refused message found => message ++ ", found " ++ describe found ++ place file
  | badNumber text => "could not convert string to float: " ++ Text.quote text
  | noStatement => "'NoneType' object has no attribute 'value'"

end ParseError

end Bagay
