import Bagay.Node.Eval

/-!
# Executions

How an execution goes on after its first statement, and what its end says to a reader: the place
where it stopped, the class of the fault and the message.

* `Node.step_cases`: what a statement without a fault does.
* `exists_step_of_fault_eq_none`: an execution without a fault, statement by statement.
* `Execution.stop?`: where and why an execution stopped; `stop?_execute_of_ok` and
  `stop?_execute_of_error` compute it along the list of statements.
* `execute_append`: statements after statements that have no fault.
* `exists_of_fault`, `execute_append_of_error`: a fault is that of a single statement, and all that
  is left of the execution is what the statements before it did.
* `FailsAt`: the index of the first failing statement; `started_of_failsAt`: it is the last one
  started; `started_of_not_failsAt`: without one, all statements are started.
* `Execution.completed`: the statements that an execution got done; `execute_frame`: the names that
  none of them declares keep their values.
-/

namespace Bagay

/-- The classes of faults. Both faults about a misplaced node are of one class. -/
inductive Fault.Class
  | undefined
  | mismatch
  | unknownOp
  | misplaced
  deriving DecidableEq, Repr

/-- The class of a fault. -/
def Fault.toClass : Fault → Fault.Class
  | undefined _ => .undefined
  | mismatch .. => .mismatch
  | unknownOp _ => .unknownOp
  | notExpr _ => .misplaced
  | notStmt _ => .misplaced

/-- The end of a run before its last statement is done: the index of the failing statement, the
class of the fault and the message. -/
structure Stop where
  index : Nat
  fault : Fault.Class
  message : String
  deriving DecidableEq, Repr

/-- The same end, one statement later. -/
def Stop.later (s : Stop) : Stop := { s with index := s.index + 1 }

/-- Where and why an execution stopped, in a file. The failing statement is the last one started. -/
def Execution.stop? (file : Option String) (r : Execution) : Option Stop :=
  r.fault.map fun f => ⟨r.started.length - 1, f.toClass, f.message file⟩

theorem Execution.stop?_eq_none_iff (r : Execution) (file : Option String) :
    r.stop? file = none ↔ r.fault = none := by
  simp [stop?]

variable {b b' : Bindings} {n : Node} {ns : List Node} {s : String} {f : Fault}

/-! ### A single statement -/

section Step

variable {e : Node} {v : Value}

theorem step_declare_of_ok (h : e.eval b = .ok v) (x type : String) :
    (Node.declare x type e).step b = .ok (b.insert x v, "") := by
  rw [Node.step, h]
  rfl

theorem step_declare_of_error (h : e.eval b = .error f) (x type : String) :
    (Node.declare x type e).step b = .error f := by
  rw [Node.step, h]
  rfl

theorem step_print_of_ok (h : e.eval b = .ok v) :
    (Node.print e).step b = .ok (b, v.display ++ "\n") := by
  rw [Node.step, h]
  rfl

theorem step_print_of_error (h : e.eval b = .error f) : (Node.print e).step b = .error f := by
  rw [Node.step, h]
  rfl

end Step

/-- A statement without a fault binds a name or prints. -/
theorem Node.step_cases (h : n.step b = .ok (b', s)) :
    (∃ x type e v, n = .declare x type e ∧ e.eval b = .ok v ∧ b' = b.insert x v ∧ s = "") ∨
      ∃ e v, n = .print e ∧ e.eval b = .ok v ∧ b' = b ∧ s = v.display ++ "\n" := by
  cases n with
  | declare x type e =>
    rcases he : e.eval b with f | v
    · rw [step_declare_of_error he] at h
      cases h
    · rw [step_declare_of_ok he] at h
      cases h
      exact .inl ⟨x, type, e, v, rfl, he, rfl, rfl⟩
  | print e =>
    rcases he : e.eval b with f | v
    · rw [step_print_of_error he] at h
      cases h
    · rw [step_print_of_ok he] at h
      cases h
      exact .inr ⟨e, v, rfl, he, rfl, rfl⟩
  | _ => cases h

/-- The name that a statement declares. -/
def Node.declared? : Node → Option String
  | declare x _ _ => some x
  | _ => none

/-- A statement changes no name but the one that it declares. -/
theorem Node.step_frame (h : n.step b = .ok (b', s)) {x : String} (hx : n.declared? ≠ some x) :
    b'[x]? = b[x]? := by
  rcases Node.step_cases h with ⟨y, type, e, v, rfl, -, rfl, -⟩ | ⟨e, v, rfl, -, rfl, -⟩
  · have hne : y ≠ x := fun hyx => hx (congrArg some hyx)
    simp [Std.TreeMap.getElem?_insert, hne]
  · rfl

/-! ### The first statement -/

theorem execute_of_error (h : n.step b = .error f) (ns : List Node) :
    execute b (n :: ns) = ⟨b, "", [n], some f⟩ := by
  rw [execute, h]

theorem execute_of_ok (h : n.step b = .ok (b', s)) (ns : List Node) :
    execute b (n :: ns) = { execute b' ns with
      output := s ++ (execute b' ns).output, started := n :: (execute b' ns).started } := by
  rw [execute, h]

theorem exists_step_of_fault_eq_none (h : (execute b (n :: ns)).fault = none) :
    ∃ b' s, n.step b = .ok (b', s) ∧ (execute b' ns).fault = none := by
  rcases hn : n.step b with f | ⟨b', s⟩
  · rw [execute_of_error hn] at h
    cases h
  · rw [execute_of_ok hn] at h
    exact ⟨b', s, rfl, h⟩

theorem started_ne_nil_of_fault (b : Bindings) (ns : List Node) (h : (execute b ns).fault ≠ none) :
    (execute b ns).started ≠ [] := by
  rcases ns with _ | ⟨n, ns⟩
  · exact absurd rfl h
  · rcases hn : n.step b with f | ⟨b', s⟩
    · simp [execute_of_error hn]
    · simp [execute_of_ok hn]

theorem stop?_execute_of_error (file : Option String) (h : n.step b = .error f) (ns : List Node) :
    (execute b (n :: ns)).stop? file = some ⟨0, f.toClass, f.message file⟩ := by
  rw [execute_of_error h]
  rfl

theorem stop?_execute_of_ok (file : Option String) (h : n.step b = .ok (b', s)) (ns : List Node) :
    (execute b (n :: ns)).stop? file = ((execute b' ns).stop? file).map Stop.later := by
  rw [execute_of_ok h]
  unfold Execution.stop?
  rcases hf : (execute b' ns).fault with _ | f
  · rfl
  · have hne := started_ne_nil_of_fault b' ns (by simp [hf])
    have hpos := List.length_pos_iff.mpr hne
    simp only [Option.map_some, Stop.later, List.length_cons]
    congr 2
    omega

/-! ### One list after another -/

/-- After statements that have no fault, the next ones go on from the bindings reached. -/
theorem execute_append (h : (execute b ns).fault = none) (ms : List Node) :
    execute b (ns ++ ms) =
      { bindings := (execute (execute b ns).bindings ms).bindings
        output := (execute b ns).output ++ (execute (execute b ns).bindings ms).output
        started := (execute b ns).started ++ (execute (execute b ns).bindings ms).started
        fault := (execute (execute b ns).bindings ms).fault } := by
  induction ns generalizing b with
  | nil => simp [execute]
  | cons n ns ih =>
    obtain ⟨b', s, hn, hns⟩ := exists_step_of_fault_eq_none h
    rw [List.cons_append, execute_of_ok hn, execute_of_ok hn, ih hns]
    simp [String.append_assoc]

/-! ### The failing statement -/

theorem started_of_fault_eq_none (h : (execute b ns).fault = none) :
    (execute b ns).started = ns := by
  induction ns generalizing b with
  | nil => rfl
  | cons n ns ih =>
    obtain ⟨b', s, hn, hns⟩ := exists_step_of_fault_eq_none h
    have hrest : (execute b' ns).started = ns := ih hns
    rw [execute_of_ok hn]
    simp only [hrest]

/-- A fault is that of one statement, after statements that have none. -/
theorem exists_of_fault (h : (execute b ns).fault = some f) :
    ∃ before n after, ns = before ++ n :: after ∧ (execute b before).fault = none ∧
      n.step (execute b before).bindings = .error f := by
  induction ns generalizing b with
  | nil => cases h
  | cons n ns ih =>
    rcases hn : n.step b with g | ⟨b', s⟩
    · rw [execute_of_error hn] at h
      cases h
      exact ⟨[], n, ns, rfl, rfl, hn⟩
    · rw [execute_of_ok hn] at h
      obtain ⟨before, n', after, rfl, hbefore, hstep⟩ := ih h
      refine ⟨n :: before, n', after, rfl, ?_, ?_⟩
      · rw [execute_of_ok hn]
        exact hbefore
      · rw [execute_of_ok hn]
        exact hstep

/-- The failing statement adds its fault to what the statements before it did, and ends the
execution. -/
theorem execute_append_of_error {before : List Node} (h : (execute b before).fault = none)
    (hn : n.step (execute b before).bindings = .error f) (after : List Node) :
    execute b (before ++ n :: after) =
      { execute b before with started := before ++ [n], fault := some f } := by
  rw [execute_append h, execute_of_error hn, started_of_fault_eq_none h, String.append_empty]

/-- The statement with index `k` is the first one that fails: those before it have no fault, and it
has one on the bindings that they leave. -/
def FailsAt (b : Bindings) (ns : List Node) (k : Nat) : Prop :=
  (execute b (ns.take k)).fault = none ∧
    ∃ n f, ns[k]? = some n ∧ n.step (execute b (ns.take k)).bindings = .error f

theorem exists_failsAt_of_fault (h : (execute b ns).fault = some f) : ∃ k, FailsAt b ns k := by
  obtain ⟨before, n, after, rfl, hbefore, hstep⟩ := exists_of_fault h
  have htake : (before ++ n :: after).take before.length = before := List.take_left
  refine ⟨before.length, ?_, n, f, by simp, ?_⟩
  · rw [htake]
    exact hbefore
  · rw [htake]
    exact hstep

theorem started_of_not_failsAt (h : ∀ k, ¬ FailsAt b ns k) : (execute b ns).started = ns := by
  rcases hf : (execute b ns).fault with _ | f
  · exact started_of_fault_eq_none hf
  · obtain ⟨k, hk⟩ := exists_failsAt_of_fault hf
    exact absurd hk (h k)

/-- The first failing statement is the last one started. -/
theorem started_of_failsAt {k : Nat} (h : FailsAt b ns k) :
    (execute b ns).started = ns.take (k + 1) := by
  obtain ⟨hbefore, n, f, hn, hstep⟩ := h
  obtain ⟨hk, hget⟩ := List.getElem?_eq_some_iff.mp hn
  have hsplit : ns = ns.take k ++ n :: ns.drop (k + 1) := by
    rw [← hget, ← List.drop_eq_getElem_cons hk, List.take_append_drop]
  have hexec := execute_append_of_error hbefore hstep (ns.drop (k + 1))
  rw [← hsplit] at hexec
  rw [hexec, List.take_add_one, hn]
  rfl

/-! ### Names that keep their values -/

/-- The statements that an execution got done: all that it started, except the failing one. -/
def Execution.completed (r : Execution) : List Node :=
  match r.fault with
  | none => r.started
  | some _ => r.started.dropLast

theorem completed_execute_of_error (h : n.step b = .error f) (ns : List Node) :
    (execute b (n :: ns)).completed = [] := by
  rw [execute_of_error h]
  rfl

theorem completed_execute_of_ok (h : n.step b = .ok (b', s)) (ns : List Node) :
    (execute b (n :: ns)).completed = n :: (execute b' ns).completed := by
  rw [execute_of_ok h]
  unfold Execution.completed
  rcases hf : (execute b' ns).fault with _ | f
  · rfl
  · have hne := started_ne_nil_of_fault b' ns (by simp [hf])
    exact List.dropLast_cons_of_ne_nil hne

/-- A name that no completed statement declares keeps its value. -/
theorem execute_frame {x : String}
    (h : ∀ m ∈ (execute b ns).completed, m.declared? ≠ some x) :
    (execute b ns).bindings[x]? = b[x]? := by
  induction ns generalizing b with
  | nil => rfl
  | cons n ns ih =>
    rcases hn : n.step b with f | ⟨b', s⟩
    · rw [execute_of_error hn]
    · rw [completed_execute_of_ok hn, List.forall_mem_cons] at h
      have hstep : b'[x]? = b[x]? := Node.step_frame hn h.1
      rw [execute_of_ok hn, ← hstep]
      exact ih h.2

end Bagay
