import Bagay.Fault

/-!
# Evaluating nodes

An expression is evaluated in a table of bindings: the left operand, the right operand, then the
operator. The first fault in this order ends the evaluation. Executing a statement yields the
bindings after it and the text that it prints; a fault leaves both untouched.

* `Node.eval`: the value of a node.
* `Node.step`: what one statement does.
* `execute`: a list of statements in order, up to the first fault.
-/

namespace Bagay

namespace Node

/-- The value of an operator between two nodes, which have to be values. -/
def apply (op : Op) (left right : Node) : Except Fault Value :=
  match left, right with
  | value x, value y =>
    match op.apply x y with
    | some v => .ok v
    | none => .error (.mismatch op.symbol left right)
  | _, _ => .error (.mismatch op.symbol left right)

/-- The value of a symbol between two values. -/
def applySymbol (symbol : String) (x y : Value) : Except Fault Value :=
  match Op.ofSymbol? symbol with
  | some op => apply op (value x) (value y)
  | none => .error (.unknownOp symbol)

/-- The value of a node, in a table of bindings. -/
def eval (b : Bindings) : Node → Except Fault Value
  | number x => .ok (.number x)
  | text s => .ok (.text s)
  | name n =>
    match b[n]? with
    | some v => .ok v
    | none => .error (.undefined n)
  | binary symbol left right => do
    let x ← left.eval b
    let y ← right.eval b
    applySymbol symbol x y
  | n => .error (.notExpr n)

/-- The bindings after a statement, and the text that it prints. -/
def step (b : Bindings) : Node → Except Fault (Bindings × String)
  | declare x _ e => do
    let v ← e.eval b
    return (b.insert x v, "")
  | print e => do
    let v ← e.eval b
    return (b, v.display ++ "\n")
  | n => .error (.notStmt n)

end Node

/-- What the execution of a list of statements does. -/
structure Execution where
  /-- The bindings at the end. -/
  bindings : Bindings
  /-- The text printed. -/
  output : String
  /-- The statements started, the failing one included. -/
  started : List Node
  /-- The fault that ended the execution, if there was one. -/
  fault : Option Fault

/-- Executes statements in order, up to the first fault. -/
def execute (b : Bindings) : List Node → Execution
  | [] => ⟨b, "", [], none⟩
  | n :: ns =>
    match n.step b with
    | .error f => ⟨b, "", [n], some f⟩
    | .ok (b', s) =>
      let r := execute b' ns
      { r with output := s ++ r.output, started := n :: r.started }

end Bagay
