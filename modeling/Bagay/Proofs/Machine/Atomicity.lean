import Bagay.Machine
import Bagay.Proofs.Execution
import Mathlib.Tactic.Common

/-!
# Failing runs leave no half-done work

A run that fails stops between two stages or between two statements, never inside one. If the source
does not parse, no statement of it is executed, not even those before the error. If a statement has
a fault, the bindings and the output are those of the statements before it: neither a value that was
computed on the way to the fault nor a statement after it leaves a trace. The same holds of nodes
that no source can bring about.

* `Report.CutOff`: what a report says when the node with a given index has a fault.
* `Machine.cutOff_of_result_exec`: an execution that fails is cut off at some node.
* `runs_are_atomic`: the result.
-/

namespace Bagay

/-- The report `r` about the nodes `ns` on the machine `m`, of which the one with index `k` has the
fault `f`. -/
structure Report.CutOff (r : Report) (m : Machine) (ns : List Node) (k : Nat) (f : Fault) :
    Prop where
  /-- The nodes before it succeed. -/
  result_before : (m.exec (ns.take k)).result = .ok none
  /-- It has the fault on the machine that these leave. -/
  step_eq : ∃ n, ns[k]? = some n ∧ n.step (m.exec (ns.take k)).machine.bindings = .error f
  /-- It binds nothing. -/
  machine_eq : r.machine = (m.exec (ns.take k)).machine
  /-- It prints nothing. -/
  output_eq : r.output = (m.exec (ns.take k)).output
  /-- No later node is started. -/
  started_eq : (execute m.bindings ns).started = ns.take (k + 1)
  /-- Other nodes in the place of the later ones make no difference. -/
  exec_eq : ∀ ms, m.exec (ns.take (k + 1) ++ ms) = m.exec ns

namespace Machine

variable {m : Machine} {ns : List Node} {f : Fault}

/-- **Executions**: if nodes have a fault, then one of them has it, and the report is that of the
nodes before this one. -/
theorem cutOff_of_result_exec (h : (m.exec ns).result = .error (.fault f)) :
    ∃ k, (m.exec ns).CutOff m ns k f := by
  obtain ⟨before, n, after, rfl, hbefore, hstep⟩ := exists_of_fault (fault_of_result_exec h)
  have hcut : ∀ ms, execute m.bindings (before ++ n :: ms) =
      { execute m.bindings before with started := before ++ [n], fault := some f } :=
    execute_append_of_error hbefore hstep
  have htake : (before ++ n :: after).take before.length = before := List.take_left
  have hsucc : (before ++ n :: after).take (before.length + 1) = before ++ [n] := by
    rw [List.take_length_add_append, List.take_succ_cons, List.take_zero]
  refine ⟨before.length, ?_, ⟨n, by simp, ?_⟩, ?_, ?_, ?_, fun ms => ?_⟩
  · rw [htake]
    exact result_exec_of_none hbefore
  · rw [htake]
    exact hstep
  · rw [htake]
    simp only [exec, hcut]
  · rw [htake]
    simp only [exec, hcut]
  · rw [hsucc, hcut]
  · rw [hsucc, List.append_assoc, List.singleton_append]
    simp only [exec, hcut]

theorem cutOff_of_result_run {verbose : Bool} {source : String} {ss : List Stmt}
    (hss : (parsed source).result = .ok ss)
    (h : (m.run verbose source).result = .error (.fault f)) :
    ∃ k, (m.run verbose source).CutOff m (ss.map Stmt.toNode) k f := by
  rw [run_of_ok hss] at h ⊢
  obtain ⟨k, hk⟩ := cutOff_of_result_exec h
  exact ⟨k, ⟨hk.result_before, hk.step_eq, hk.machine_eq, hk.output_eq, hk.started_eq, hk.exec_eq⟩⟩

end Machine

/-- **Atomicity**: a source that does not parse leaves the machine as it is and prints nothing; and
if a statement of a source, or a node of any list of nodes, has a fault, then the bindings and the
output are those of the statements before it, and no statement after it is started. -/
theorem runs_are_atomic (m : Machine) :
    (∀ (verbose : Bool) (source : String) (e : ParseError),
      (parsed source).result = .error e →
      (m.run verbose source).machine = m ∧ (m.run verbose source).output = "" ∧
        (m.run verbose source).result = .error (.parse e)) ∧
    (∀ (verbose : Bool) (source : String) (ss : List Stmt) (f : Fault),
      (parsed source).result = .ok ss →
      (m.run verbose source).result = .error (.fault f) →
      ∃ k, (m.run verbose source).CutOff m (ss.map Stmt.toNode) k f) ∧
    ∀ (ns : List Node) (f : Fault), (m.exec ns).result = .error (.fault f) →
      ∃ k, (m.exec ns).CutOff m ns k f := by
  refine ⟨fun verbose source e he => ?_, fun verbose source ss f hss hf => ?_, fun ns f hf => ?_⟩
  · rw [Machine.run_of_error he]
    exact ⟨rfl, rfl, rfl⟩
  · exact Machine.cutOff_of_result_run hss hf
  · exact Machine.cutOff_of_result_exec hf

/-- A machine on which the name `x` is bound. -/
def boundMachine : Machine := ⟨some "a.hry", (∅ : Bindings).insert "x" (.text "old")⟩

/-- A statement that could be executed, then a declaration that breaks off. -/
def brokenOff : String := "ipakita x; bagay x"

/-- A declaration of a bound name that fails at the last of its three operators, between two print
statements. -/
def lateMismatch : String := "ipakita x; bagay x -> teksto = x + \"a\" + x - x; ipakita x"

/-- The statements of `lateMismatch`. -/
def lateMismatchStmts : List Stmt :=
  [.print (.name "x"),
    .declare "x" "teksto" (.binary .sub (.binary .add (.binary .add (.name "x") (.text "a"))
      (.name "x")) (.name "x")),
    .print (.name "x")]

/-- A declaration of a bound name by a sum with a statement in it, then a node that is no
statement. -/
def strayNodes : List Node :=
  [.declare "y" "" (.text "b"), .declare "x" "" (.binary "+" (.name "y") (.print (.name "y"))),
    .bare "x"]

theorem atomic_runs_on_boundMachine :
    ((boundMachine.run false brokenOff).machine = boundMachine ∧
      (boundMachine.run false brokenOff).output = "") ∧
    (boundMachine.run false lateMismatch).CutOff boundMachine (lateMismatchStmts.map Stmt.toNode) 1
      (.mismatch "-" (.value (.text "oldaold")) (.value (.text "old"))) ∧
    (boundMachine.exec strayNodes).CutOff boundMachine strayNodes 1
      (.notExpr (.print (.name "y"))) := by
  obtain ⟨hparse, hrun, hexec⟩ := runs_are_atomic boundMachine
  have hbroken : (parsed brokenOff).result =
      .error (.refused "Expected '->'" none) := by
    decide +kernel
  have hstmts : (parsed lateMismatch).result =
      .ok lateMismatchStmts := by
    decide +kernel
  have hmismatch : (boundMachine.run false lateMismatch).result =
      .error (.fault (.mismatch "-" (.value (.text "oldaold")) (.value (.text "old")))) := by
    rw [Machine.run_of_ok hstmts]
    rfl
  obtain ⟨hmachine, houtput, -⟩ := hparse false _ _ hbroken
  obtain ⟨k, hk⟩ := hrun false _ _ _ hstmts hmismatch
  obtain ⟨l, hl⟩ := hexec strayNodes (.notExpr (.print (.name "y"))) rfl
  -- the number of statements started tells the index
  obtain rfl : k = 1 := by
    have hlen := congrArg List.length hk.started_eq
    rw [List.length_take] at hlen
    change 2 = min (k + 1) 3 at hlen
    omega
  obtain rfl : l = 1 := by
    have hlen := congrArg List.length hl.started_eq
    rw [List.length_take] at hlen
    change 2 = min (l + 1) 3 at hlen
    omega
  exact ⟨⟨hmachine, houtput⟩, hk, hl⟩

end Bagay
