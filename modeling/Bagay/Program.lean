/-!
# Programs

A program is a list of statements. A statement binds a name to the value of an expression or prints
such a value; an expression adds and subtracts literals and names.

* `Op.ofSymbol?_eq_some_iff`: an operator is determined by its symbol.
-/

namespace Bagay

/-- The binary operators. -/
inductive Op
  | add
  | sub
  deriving DecidableEq, Repr

namespace Op

/-- The symbol of an operator. -/
def symbol : Op → String
  | add => "+"
  | sub => "-"

/-- The operator of a symbol. -/
def ofSymbol? (s : String) : Option Op :=
  if s = "+" then some add else if s = "-" then some sub else none

@[simp] theorem ofSymbol?_symbol (op : Op) : ofSymbol? op.symbol = some op := by
  cases op <;> decide

theorem ofSymbol?_eq_some_iff {s : String} {op : Op} :
    ofSymbol? s = some op ↔ s = op.symbol := by
  constructor
  · intro h
    unfold ofSymbol? at h
    split at h
    · next hs => cases h; exact hs
    · split at h
      · next hs => cases h; exact hs
      · cases h
  · rintro rfl
    exact ofSymbol?_symbol op

end Op

/-- Expressions. -/
inductive Expr
  /-- A number literal. -/
  | number (x : Float)
  /-- A string literal. -/
  | text (s : String)
  /-- A name that stands for its bound value. -/
  | name (n : String)
  /-- An operator between two expressions. -/
  | binary (op : Op) (left right : Expr)
  deriving DecidableEq, Repr

/-- Statements. -/
inductive Stmt
  /-- Binds a name to the value of an expression; the data type is only noted down. -/
  | declare (name datatype : String) (value : Expr)
  /-- Prints the value of an expression on a line of its own. -/
  | print (value : Expr)
  deriving DecidableEq, Repr

end Bagay
