import Bagay.Text.Quoted

/-!
# Tokens

A program is a list of tokens: a kind and the text that stood in the source, for a string literal
without its quotes. The language reserves four words, two of which name the data types.

* `Token.Kind.name_injective`: a kind is determined by its printed name.
-/

namespace Bagay

/-- The kinds of tokens. -/
inductive Token.Kind
  | keyword
  | identifier
  | operator
  | string
  | number
  | unknown
  deriving DecidableEq, Repr

namespace Token.Kind

/-- The printed name of a kind. -/
def name : Kind → String
  | keyword => "KEYWORD"
  | identifier => "IDENTIFIER"
  | operator => "OPERATOR"
  | string => "STRING"
  | number => "NUMBER"
  | unknown => "UNKNOWN"

/-- All kinds. -/
def all : List Kind :=
  [keyword, identifier, operator, string, number, unknown]

/-- The kind of a printed name. -/
def ofName? (s : String) : Option Kind :=
  all.find? (·.name = s)

/-- The message about a name that no kind has. -/
def unknownName (s : String) : String :=
  Text.quote s ++ " is not a valid TokenType"

theorem name_injective {k l : Kind} (h : k.name = l.name) : k = l := by
  cases k <;> cases l <;> simp_all [name]

end Token.Kind

/-- A token: its kind and its text. -/
structure Token where
  kind : Token.Kind
  text : String
  deriving DecidableEq, Repr

namespace Token

/-- The written form of a token: its kind and its quoted text. -/
def written (t : Token) : String :=
  "Token(" ++ t.kind.name ++ ", " ++ Text.quote t.text ++ ")"

/-- The word that opens a declaration. -/
def declareWord : String := "bagay"

/-- The word that opens a print statement. -/
def printWord : String := "ipakita"

/-- The names of the data types: text and number. -/
def datatypes : List String := ["teksto", "bilang"]

/-- The reserved words. -/
def keywords : List String := [declareWord, printWord] ++ datatypes

/-- The token of a word: a keyword if the word is reserved, otherwise an identifier. -/
def ofWord (w : String) : Token :=
  if w ∈ keywords then ⟨.keyword, w⟩ else ⟨.identifier, w⟩

@[simp] theorem text_ofWord (w : String) : (ofWord w).text = w := by
  unfold ofWord; split <;> rfl

theorem kind_ofWord (w : String) :
    (ofWord w).kind = .keyword ∨ (ofWord w).kind = .identifier := by
  unfold ofWord
  split
  · exact .inl rfl
  · exact .inr rfl

end Token

end Bagay
