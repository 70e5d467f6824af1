import Bagay.Node.Eval
import Mathlib.Tactic.Common

/-!
# Evaluation goes through a tree in post-order

The value of a node is found by recursion, and the same value by a loop: list the nodes of the tree,
each operator behind its two operands (`Node.postorder`), and go through the list with a stack of
operands (`Stack.run`). A literal or a bound name is put on the stack, an operator takes two
operands from it and puts its value there, and the first fault ends the loop. So of several faults
in a tree the first one in this order is found, and an operator, known or not, is looked at only
when both of its operands have values. This holds of any object that stands in the tree, whether it
can be evaluated or not.

* `Stack.operate`: the operators, said case by case; `applySymbol_eq_operate`.
* `Stack.run_postorder`: the list of a tree puts its value on the stack, whatever is there already,
  by induction on the tree.
* `Stack.exists_failsOn`: the node of the list at which an evaluation fails.
* `eval_eq_run_postorder`: the result.
-/

namespace Bagay

/-- The nodes of a tree, each behind its operands. Only operators have operands. -/
def Node.postorder : Node → List Node
  | binary symbol left right => left.postorder ++ right.postorder ++ [binary symbol left right]
  | n => [n]

namespace Stack

/-- Why the loop ends before the last node. -/
inductive Halt
  /-- The fault of a node. -/
  | fault (f : Fault)
  /-- Fewer than two operands for an operator. -/
  | underflow
  deriving DecidableEq, Repr

/-- The value of a symbol between two operands. -/
def operate (symbol : String) (x y : Value) : Except Fault Value :=
  if symbol = "+" then
    match x, y with
    | .number a, .number c => .ok (.number (a + c))
    | .text s, .text t => .ok (.text (s ++ t))
    | x, y => .error (.mismatch "+" (.value x) (.value y))
  else if symbol = "-" then
    match x, y with
    | .number a, .number c => .ok (.number (a - c))
    | x, y => .error (.mismatch "-" (.value x) (.value y))
  else .error (.unknownOp symbol)

/-- A value on top of a stack, or the fault that there is in its place. -/
def put (st : List Value) : Except Fault Value → Except Halt (List Value)
  | .ok v => .ok (v :: st)
  | .error f => .error (.fault f)

/-- One turn of the loop. The right operand is on top of the left one. -/
def step (b : Bindings) (st : List Value) : Node → Except Halt (List Value)
  | .number x => .ok (.number x :: st)
  | .text s => .ok (.text s :: st)
  | .name n =>
    match b[n]? with
    | some v => .ok (v :: st)
    | none => .error (.fault (.undefined n))
  | .binary symbol _ _ =>
    match st with
    | y :: x :: rest => put rest (operate symbol x y)
    | _ => .error .underflow
  | n => .error (.fault (.notExpr n))

/-- The loop along a list of nodes, up to the first fault. -/
def run (b : Bindings) (ns : List Node) (st : List Value) : Except Halt (List Value) :=
  ns.foldlM (step b) st

variable {b : Bindings} {n : Node} {st : List Value}

theorem run_append_of_ok {ns : List Node} {st' : List Value} (h : run b ns st = .ok st')
    (ms : List Node) : run b (ns ++ ms) st = run b ms st' := by
  unfold run at h ⊢
  rw [List.foldlM_append, h]
  rfl

theorem run_append_of_error {ns : List Node} {e : Halt} (h : run b ns st = .error e)
    (ms : List Node) : run b (ns ++ ms) st = .error e := by
  unfold run at h ⊢
  rw [List.foldlM_append, h]
  rfl

theorem run_singleton (b : Bindings) (n : Node) (st : List Value) :
    run b [n] st = step b st n := by
  unfold run
  simp

/-! ### The value of a tree -/

theorem applySymbol_eq_operate (symbol : String) (x y : Value) :
    Node.applySymbol symbol x y = operate symbol x y := by
  unfold Node.applySymbol Op.ofSymbol? operate
  by_cases hadd : symbol = "+"
  · rw [if_pos hadd, if_pos hadd]
    cases x <;> cases y <;> rfl
  · rw [if_neg hadd, if_neg hadd]
    by_cases hsub : symbol = "-"
    · rw [if_pos hsub, if_pos hsub]
      cases x <;> cases y <;> rfl
    · rw [if_neg hsub, if_neg hsub]

theorem eval_binary_of_ok {left right : Node} {x y : Value} (hl : left.eval b = .ok x)
    (hr : right.eval b = .ok y) (symbol : String) :
    (Node.binary symbol left right).eval b = operate symbol x y := by
  rw [Node.eval, hl, hr, ← applySymbol_eq_operate]
  rfl

theorem postorder_of_leaf (h : n.isBinary = false) : n.postorder = [n] := by
  cases n with
  | binary symbol left right => cases h
  | _ => rfl

/-- At a node without operands, the loop does what the recursion does. -/
theorem step_of_leaf (h : n.isBinary = false) (b : Bindings) (st : List Value) :
    step b st n = put st (n.eval b) := by
  cases n with
  | binary symbol left right => cases h
  | name n =>
    rw [step, Node.eval]
    rcases b[n]? with _ | v <;> rfl
  | _ => rfl

/-- **Post-order**: the list of a tree puts the value of the tree on the stack, or has its fault. -/
theorem run_postorder (b : Bindings) (n : Node) (st : List Value) :
    run b n.postorder st = put st (n.eval b) := by
  induction n generalizing st with
  | binary symbol left right ihl ihr =>
    rw [Node.postorder, List.append_assoc]
    rcases hl : left.eval b with f | x <;> rw [hl] at ihl
    · rw [run_append_of_error (ihl st), Node.eval, hl]
      rfl
    rcases hr : right.eval b with f | y <;> rw [hr] at ihr
    · rw [run_append_of_ok (ihl st), run_append_of_error (ihr (x :: st)), Node.eval, hl, hr]
      rfl
    · rw [run_append_of_ok (ihl st), run_append_of_ok (ihr (x :: st)), run_singleton,
        eval_binary_of_ok hl hr]
      rfl
  | _ => rw [postorder_of_leaf rfl, run_singleton, step_of_leaf rfl]

theorem run_postorder_of_ok {v : Value} (h : n.eval b = .ok v) (st : List Value) :
    run b n.postorder st = .ok (v :: st) := by
  rw [run_postorder, h]
  rfl

/-! ### The node that fails -/

/-- The node has the fault on the stack. An operator finds the values of its operands there. -/
inductive FailsOn (b : Bindings) : Node → List Value → Fault → Prop
  | leaf {n : Node} {st : List Value} {f : Fault} (hn : n.isBinary = false)
      (h : n.eval b = .error f) : FailsOn b n st f
  | operator {symbol : String} {left right : Node} {x y : Value} {rest : List Value} {f : Fault}
      (hl : left.eval b = .ok x) (hr : right.eval b = .ok y) (h : operate symbol x y = .error f) :
      FailsOn b (.binary symbol left right) (y :: x :: rest) f

/-- **The first fault**: an evaluation that fails does so at a node of the list, behind nodes that
have no fault. -/
theorem exists_failsOn {f : Fault} (h : n.eval b = .error f) (st : List Value) :
    ∃ before m after st', n.postorder = before ++ m :: after ∧ run b before st = .ok st' ∧
      FailsOn b m st' f := by
  induction n generalizing st with
  | binary symbol left right ihl ihr =>
    rw [Node.postorder]
    rcases hl : left.eval b with g | x
    · rw [Node.eval, hl] at h
      cases h
      obtain ⟨before, m, after, st', hsplit, hrun, hfails⟩ := ihl hl st
      refine ⟨before, m, after ++ right.postorder ++ [.binary symbol left right], st', ?_, hrun,
        hfails⟩
      simp [hsplit]
    rcases hr : right.eval b with g | y
    · rw [Node.eval, hl, hr] at h
      cases h
      obtain ⟨before, m, after, st', hsplit, hrun, hfails⟩ := ihr hr (x :: st)
      refine ⟨left.postorder ++ before, m, after ++ [.binary symbol left right], st', ?_, ?_,
        hfails⟩
      · simp [hsplit]
      · rw [run_append_of_ok (run_postorder_of_ok hl st), hrun]
    · -- both operands have values, so the fault is that of the operator
      rw [eval_binary_of_ok hl hr] at h
      refine ⟨left.postorder ++ right.postorder, .binary symbol left right, [], y :: x :: st, rfl,
        ?_, .operator hl hr h⟩
      rw [run_append_of_ok (run_postorder_of_ok hl st), run_postorder_of_ok hr]
  | _ => exact ⟨[], _, [], st, postorder_of_leaf rfl, rfl, .leaf rfl h⟩

theorem eq_of_operate_eq_unknownOp {symbol symbol' : String} {x y : Value}
    (h : operate symbol x y = .error (.unknownOp symbol')) : symbol = symbol' := by
  unfold operate at h
  split_ifs at h
  · cases x <;> cases y <;> cases h
  · cases x <;> cases y <;> cases h
  · cases h
    rfl

/-- Only an operator has the fault of an unknown one. -/
theorem FailsOn.exists_operands {symbol : String} (h : FailsOn b n st (.unknownOp symbol)) :
    ∃ left right x y rest, n = .binary symbol left right ∧ st = y :: x :: rest ∧
      left.eval b = .ok x ∧ right.eval b = .ok y := by
  cases h with
  | leaf hn h =>
    cases n with
    | binary symbol left right => cases hn
    | name n =>
      rw [Node.eval] at h
      split at h <;> cases h
    | _ => cases h
  | operator hl hr h =>
    obtain rfl := eq_of_operate_eq_unknownOp h
    exact ⟨_, _, _, _, _, rfl, rfl, hl, hr⟩

/-! ### The stack -/

theorem put_ne_underflow (st : List Value) (r : Except Fault Value) :
    put st r ≠ .error .underflow := by
  cases r <;> simp [put]

/-- The loop never runs out of operands, at no point of the list. -/
theorem run_ne_underflow {before after : List Node} (h : n.postorder = before ++ after)
    (b : Bindings) (st : List Value) : run b before st ≠ .error .underflow := by
  intro hunder
  have hrun := run_postorder b n st
  rw [h, run_append_of_error hunder] at hrun
  exact put_ne_underflow st _ hrun.symm

theorem put_eq_ok_iff {r : Except Fault Value} {st' : List Value} :
    put st r = .ok st' ↔ ∃ v, r = .ok v ∧ st' = v :: st := by
  cases r <;> simp [put, eq_comm]

theorem put_eq_fault_iff {r : Except Fault Value} {f : Fault} :
    put st r = .error (.fault f) ↔ r = .error f := by
  cases r <;> simp [put]

end Stack

open Stack in
/-- **Evaluation**: the value of a node is what the loop along its list leaves on an empty stack,
and its fault, with its message in any file, is the one that ends the loop. The loop never runs out
of operands, and if it comes to its end, it leaves exactly one. So an operator is found to be
unknown only behind its two operands, when both of them have values. -/
theorem eval_eq_run_postorder (b : Bindings) (n : Node) :
    (∀ v, n.eval b = .ok v ↔ run b n.postorder [] = .ok [v]) ∧
    (∀ f, n.eval b = .error f ↔ run b n.postorder [] = .error (.fault f)) ∧
    (∀ before after, n.postorder = before ++ after → run b before [] ≠ .error .underflow) ∧
    (∀ st, run b n.postorder [] = .ok st → ∃ v, st = [v]) ∧
    ∀ symbol, n.eval b = .error (.unknownOp symbol) → ∃ before left right after x y rest,
      n.postorder = before ++ .binary symbol left right :: after ∧
        run b before [] = .ok (y :: x :: rest) ∧ left.eval b = .ok x ∧ right.eval b = .ok y := by
  refine ⟨fun v => ?_, fun f => ?_, fun before after h => run_ne_underflow h b [], fun st h => ?_,
    fun symbol h => ?_⟩
  · rw [run_postorder, put_eq_ok_iff]
    simp
  · rw [run_postorder, put_eq_fault_iff]
  · rw [run_postorder, put_eq_ok_iff] at h
    obtain ⟨v, -, rfl⟩ := h
    exact ⟨v, rfl⟩
  · obtain ⟨before, m, after, st, hsplit, hrun, hfails⟩ := exists_failsOn h []
    obtain ⟨left, right, x, y, rest, rfl, rfl, hl, hr⟩ := hfails.exists_operands
    exact ⟨before, left, right, after, x, y, rest, hsplit, hrun, hl, hr⟩

/-- An unknown operator in an operand of another one, in front of a print statement and a token that
stand where expressions are due. -/
def strayOperands : Node :=
  .binary "/" (.binary "*" (.text "a") (.name "x")) (.binary "+" (.print (.text "b"))
    (.token ⟨.string, "c"⟩))

/-- A number for the name `x`. -/
def numberTable : Bindings := (∅ : Bindings).insert "x" (.number 1)

theorem strayOperands_fail_at_inner_operator :
    strayOperands.eval numberTable = .error (.unknownOp "*") ∧
    Stack.run numberTable strayOperands.postorder [] = .error (.fault (.unknownOp "*")) ∧
    ∃ before left right after x y rest,
      strayOperands.postorder = before ++ .binary "*" left right :: after ∧
        Stack.run numberTable before [] = .ok (y :: x :: rest) ∧
          left.eval numberTable = .ok x ∧ right.eval numberTable = .ok y := by
  have heval : strayOperands.eval numberTable = .error (.unknownOp "*") := rfl
  obtain ⟨-, hfault, -, -, hunknown⟩ := eval_eq_run_postorder numberTable strayOperands
  exact ⟨heval, (hfault _).mp heval, hunknown "*" heval⟩

end Bagay
