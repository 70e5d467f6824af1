import Bagay.Token
import Bagay.Value

/-!
# Nodes

A host may hand over any object where a statement or an expression is due: a statement inside an
expression, an operator that the language does not have, a value, a token, a bare text or nothing at
all. A node is such an object. The statements and expressions of a program are nodes by
`Stmt.toNode` and `Expr.toNode`; there is one written form for all nodes.

* `Node.written`: a node with its class and all its parts.
* `Node.display`: a node as it is printed, which differs only for values and bare texts.
* `Node.agrees`: whether two nodes are of one class and have equal parts.
-/

namespace Bagay

/-- An object that can stand in a syntax tree. -/
inductive Node
  /-- A number literal. -/
  | number (x : Float)
  /-- A string literal. -/
  | text (s : String)
  /-- A name. -/
  | name (n : String)
  /-- A symbol, known or not, between two nodes. -/
  | binary (symbol : String) (left right : Node)
  /-- A declaration. -/
  | declare (name datatype : String) (value : Node)
  /-- A print statement. -/
  | print (value : Node)
  /-- A value. -/
  | value (v : Value)
  /-- A token. -/
  | token (t : Token)
  /-- A bare text. -/
  | bare (s : String)
  /-- Nothing at all. -/
  | absent
  deriving DecidableEq, Repr

/-- An expression as a node. -/
def Expr.toNode : Expr → Node
  | number x => .number x
  | text s => .text s
  | name n => .name n
  | binary op left right => .binary op.symbol left.toNode right.toNode

/-- A statement as a node. -/
def Stmt.toNode : Stmt → Node
  | declare name datatype value => .declare name datatype value.toNode
  | print value => .print value.toNode

/-- The written form of an operator symbol; a symbol that the language does not have is quoted. -/
def Op.written (symbol : String) : String :=
  match ofSymbol? symbol with
  | some add => "<Op.ADD: '+'>"
  | some sub => "<Op.SUB: '-'>"
  | none => Text.quote symbol

namespace Node

/-- Whether a node is an operator, known or not, between two nodes. -/
def isBinary : Node → Bool
  | binary .. => true
  | _ => false

/-- The name of the class of a node. -/
def className : Node → String
  | number _ => "NumberLiteral"
  | text _ => "StringLiteral"
  | name _ => "Identifier"
  | binary .. => "BinaryExpression"
  | declare .. => "VariableDeclaration"
  | print _ => "PrintStatement"
  | value (.number _) => "Number"
  | value (.text _) => "Text"
  | token _ => "Token"
  | bare _ => "str"
  | absent => "NoneType"

/-- The written form of a node: its class, and its parts by name. -/
def written : Node → String
  | number x => "NumberLiteral(value=" ++ Decimal.display x ++ ")"
  | text s => "StringLiteral(value=" ++ Text.quote s ++ ")"
  | name n => "Identifier(name=" ++ Text.quote n ++ ")"
  | binary symbol left right =>
    "BinaryExpression(operator=" ++ Op.written symbol ++ ", left=" ++ left.written ++
      ", right=" ++ right.written ++ ")"
  | declare n type v =>
    "VariableDeclaration(name=" ++ Text.quote n ++ ", declared_type=" ++ Text.quote type ++
      ", value=" ++ v.written ++ ")"
  | print v => "PrintStatement(value=" ++ v.written ++ ")"
  | value (.number x) => "Number(value=" ++ Decimal.display x ++ ")"
  | value (.text s) => "Text(value=" ++ Text.quote s ++ ")"
  | token t => t.written
  | bare s => Text.quote s
  | absent => "None"

/-- A node as it is printed: a value and a bare text by themselves, all else in written form. -/
def display : Node → String
  | value v => v.display
  | bare s => s
  | n => n.written

/-- Whether two nodes are of one class and have equal parts, numbers as numbers. -/
def agrees : Node → Node → Bool
  | number x, number y => x == y
  | text s, text t => s == t
  | name m, name n => m == n
  | binary s l r, binary s' l' r' => s == s' && l.agrees l' && r.agrees r'
  | declare n t v, declare n' t' v' => n == n' && t == t' && v.agrees v'
  | print v, print v' => v.agrees v'
  | value v, value v' => v.agrees v'
  | token t, token t' => t == t'
  | bare s, bare t => s == t
  | absent, absent => true
  | _, _ => false

end Node

end Bagay
