import Bagay.Node

/-!
# Faults of evaluation

Evaluation fails for one of five reasons. The first three are faults of a program, and their
messages name the file if one is known; the last two say that an object stands where it cannot be
evaluated or executed at all.

* `Fault.message`: the wording.
* `Except.bind_eq_ok_iff`, `Except.bind_eq_error_iff`: a sequence of computations that can fail.
-/

namespace Bagay

/-- Why evaluation fails. -/
inductive Fault
  /-- A name without a binding. -/
  | undefined (name : String)
  /-- An operator between operands that it has no value for. -/
  | mismatch (symbol : String) (left right : Node)
  /-- A symbol that is no operator. -/
  | unknownOp (symbol : String)
  /-- A node that is no expression. -/
  | notExpr (node : Node)
  /-- A node that is no statement. -/
  | notStmt (node : Node)
  deriving DecidableEq, Repr

namespace Fault

/-- The end of a message: the file, if one is known. -/
def place : Option String → String
  | none => ""
  | some file => " in " ++ file

/-- The message of a fault in a file. -/
def message (file : Option String) : Fault → String
  | undefined name => "Undefined variable '" ++ name ++ "'" ++ place file
  | mismatch symbol left right =>
    "Unsupported operand types for '" ++ symbol ++ "': " ++ left.className ++ " and " ++
      right.className ++ place file
  | unknownOp symbol => "Unknown operation '" ++ symbol ++ "'" ++ place file
  | notExpr node => "Unknown expression node: " ++ node.written
  | notStmt node => "Unknown statement type: " ++ node.written

end Fault

/-! ### Computations in sequence -/

namespace Except

variable {ε α β : Type} {x : Except ε α} {g : α → Except ε β}

theorem bind_eq_ok_iff {z : β} : x >>= g = .ok z ↔ ∃ y, x = .ok y ∧ g y = .ok z := by
  rcases x with f | y <;> simp [bind, Except.bind]

theorem bind_eq_error_iff {f : ε} :
    x >>= g = .error f ↔ x = .error f ∨ ∃ y, x = .ok y ∧ g y = .error f := by
  rcases x with f' | y <;> simp [bind, Except.bind]

end Except

end Bagay
