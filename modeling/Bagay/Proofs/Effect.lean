import Bagay.Proofs.Execution
import Mathlib.Data.List.ReduceOption

/-!
# What statements leave behind

Statements that are executed without a fault leave a table and a text. Both can be told from the
list of statements: a name has the value of its last declaration, or keeps the one it had if no
statement declares it, and the text is made up of the printed values. An expression is evaluated in
the table that the statements in front of it have reached by then (`tableBefore`), so a declaration
may refer to the value that it replaces.

Each part is a fact about one statement (`Node.mem_step_iff`, `Node.step_of_declared`,
`Node.step_output`, `step_eraseType`) that is carried along the list by induction.

* `Execution.HasEffect`: the table and the text, clause by clause.
* `mem_bindings_iff`, `exists_last_declaration`, `bindings_of_not_declared`,
  `exists_printedValues`: the clauses.
* `execute_map_eraseType`: declared data types make no difference.
* `execute_has_effect`: the result.
-/

namespace Bagay

/-- The table that statements reach in front of the one with index `k`. -/
def tableBefore (b : Bindings) (ns : List Node) (k : Nat) : Bindings :=
  (execute b (ns.take k)).bindings

/-- The expression that a statement prints. -/
def Node.printed? : Node → Option Node
  | print e => some e
  | _ => none

/-- The values of the printed expressions in order, each in the table in front of its statement. -/
def printedValues (b : Bindings) (ns : List Node) : List (Except Fault Value) :=
  (ns.mapIdx fun k n => n.printed?.map (·.eval (tableBefore b ns k))).reduceOption

/-- A statement without the data type that it notes down. -/
def Node.eraseType : Node → Node
  | declare x _ e => declare x "" e
  | n => n

/-- The effect that statements have on the table `b`. -/
structure Execution.HasEffect (r : Execution) (b : Bindings) (ns : List Node) : Prop where
  /-- Names are added, and none is removed. -/
  mem_iff : ∀ x, x ∈ r.bindings ↔ x ∈ b ∨ ∃ n ∈ ns, n.declared? = some x
  /-- A declared name has the value of its last declaration, in the table in front of it. -/
  last : ∀ x, (∃ n ∈ ns, n.declared? = some x) → ∃ k type e v,
    ns[k]? = some (.declare x type e) ∧ (∀ m ∈ ns.drop (k + 1), m.declared? ≠ some x) ∧
      e.eval (tableBefore b ns k) = .ok v ∧ r.bindings[x]? = some v
  /-- Every other name keeps its value. -/
  kept : ∀ x, (∀ n ∈ ns, n.declared? ≠ some x) → r.bindings[x]? = b[x]?
  /-- The text is made up of the printed values, each on a line of its own. -/
  output_eq : ∃ vs : List Value, printedValues b ns = vs.map .ok ∧
    r.output = String.join (vs.map fun v => v.display ++ "\n")

variable {b b' : Bindings} {n : Node} {ns : List Node} {s : String}

/-! ### The first statement -/

theorem tableBefore_zero (b : Bindings) (ns : List Node) : tableBefore b ns 0 = b := rfl

theorem tableBefore_succ (h : n.step b = .ok (b', s)) (ns : List Node) (k : Nat) :
    tableBefore b (n :: ns) (k + 1) = tableBefore b' ns k := by
  unfold tableBefore
  rw [List.take_succ_cons, execute_of_ok h]

theorem printedValues_cons (h : n.step b = .ok (b', s)) (ns : List Node) :
    printedValues b (n :: ns) = (n.printed?.map (·.eval b)).toList ++ printedValues b' ns := by
  unfold printedValues
  rw [List.mapIdx_cons]
  simp only [tableBefore_succ h, tableBefore_zero]
  cases n.printed? <;> rfl

/-! ### The table -/

/-- The names after a statement: those before it, and the one that it declares. -/
theorem Node.mem_step_iff (h : n.step b = .ok (b', s)) (x : String) :
    x ∈ b' ↔ x ∈ b ∨ n.declared? = some x := by
  rcases Node.step_cases h with ⟨y, type, e, v, rfl, -, rfl, -⟩ | ⟨e, v, rfl, -, rfl, -⟩
  · simp [Node.declared?, or_comm]
  · simp [Node.declared?]

theorem mem_bindings_iff (h : (execute b ns).fault = none) (x : String) :
    x ∈ (execute b ns).bindings ↔ x ∈ b ∨ ∃ n ∈ ns, n.declared? = some x := by
  induction ns generalizing b with
  | nil => simp [execute]
  | cons n ns ih =>
    obtain ⟨b', s, hn, hns⟩ := exists_step_of_fault_eq_none h
    rw [execute_of_ok hn]
    simp only [ih hns, Node.mem_step_iff hn, List.exists_mem_cons_iff, or_assoc]

theorem bindings_of_not_declared (h : (execute b ns).fault = none) {x : String}
    (hx : ∀ n ∈ ns, n.declared? ≠ some x) : (execute b ns).bindings[x]? = b[x]? := by
  refine execute_frame ?_
  rw [Execution.completed, h, started_of_fault_eq_none h]
  exact hx

theorem Node.step_of_declared (h : n.step b = .ok (b', s)) {x : String}
    (hx : n.declared? = some x) :
    ∃ type e v, n = .declare x type e ∧ e.eval b = .ok v ∧ b'[x]? = some v := by
  rcases Node.step_cases h with ⟨y, type, e, v, rfl, hv, rfl, -⟩ | ⟨e, v, rfl, -, -, -⟩
  · obtain rfl : y = x := Option.some.inj hx
    exact ⟨type, e, v, rfl, hv, by simp⟩
  · cases hx

/-- **The last declaration**: its value is the one that is left. -/
theorem exists_last_declaration (h : (execute b ns).fault = none) {x : String}
    (hx : ∃ n ∈ ns, n.declared? = some x) : ∃ k type e v,
      ns[k]? = some (.declare x type e) ∧ (∀ m ∈ ns.drop (k + 1), m.declared? ≠ some x) ∧
        e.eval (tableBefore b ns k) = .ok v ∧ (execute b ns).bindings[x]? = some v := by
  induction ns generalizing b with
  | nil => simp at hx
  | cons n ns ih =>
    obtain ⟨b', s, hn, hns⟩ := exists_step_of_fault_eq_none h
    rw [execute_of_ok hn]
    by_cases hlater : ∃ m ∈ ns, m.declared? = some x
    · obtain ⟨k, type, e, v, hk, hdrop, hv, hbound⟩ := ih hns hlater
      exact ⟨k + 1, type, e, v, hk, hdrop, by rwa [tableBefore_succ hn], hbound⟩
    · -- no later statement touches the name
      have hnone : ∀ m ∈ ns, m.declared? ≠ some x := fun m hm hmx => hlater ⟨m, hm, hmx⟩
      have hfirst : n.declared? = some x :=
        ((List.exists_mem_cons_iff _ n ns).mp hx).resolve_right hlater
      obtain ⟨type, e, v, rfl, hv, hbound⟩ := Node.step_of_declared hn hfirst
      refine ⟨0, type, e, v, rfl, hnone, hv, ?_⟩
      rw [← hbound]
      exact bindings_of_not_declared hns hnone

/-! ### The text -/

/-- A print statement prints the value of its expression, and no other statement prints. -/
theorem Node.step_output (h : n.step b = .ok (b', s)) : ∃ vs : List Value,
    (n.printed?.map (·.eval b)).toList = vs.map .ok ∧
      s = String.join (vs.map fun v => v.display ++ "\n") := by
  rcases Node.step_cases h with ⟨y, type, e, v, rfl, -, -, rfl⟩ | ⟨e, v, rfl, hv, -, rfl⟩
  · exact ⟨[], rfl, rfl⟩
  · refine ⟨[v], ?_, ?_⟩
    · simp [Node.printed?, hv]
    · simp

theorem exists_printedValues (h : (execute b ns).fault = none) : ∃ vs : List Value,
    printedValues b ns = vs.map .ok ∧
      (execute b ns).output = String.join (vs.map fun v => v.display ++ "\n") := by
  induction ns generalizing b with
  | nil => exact ⟨[], rfl, rfl⟩
  | cons n ns ih =>
    obtain ⟨b', s, hn, hns⟩ := exists_step_of_fault_eq_none h
    obtain ⟨us, hus, hs⟩ := Node.step_output hn
    obtain ⟨vs, hvs, houtput⟩ := ih hns
    refine ⟨us ++ vs, ?_, ?_⟩
    · rw [printedValues_cons hn, hus, hvs, List.map_append]
    · rw [execute_of_ok hn, List.map_append, String.join_append, ← hs, ← houtput]

/-! ### Declared data types -/

theorem step_eraseType (b : Bindings) (n : Node) : n.eraseType.step b = n.step b := by
  cases n <;> rfl

theorem execute_map_eraseType (b : Bindings) (ns : List Node) :
    (execute b (ns.map Node.eraseType)).bindings = (execute b ns).bindings ∧
      (execute b (ns.map Node.eraseType)).output = (execute b ns).output ∧
        (execute b (ns.map Node.eraseType)).fault = (execute b ns).fault := by
  induction ns generalizing b with
  | nil => exact ⟨rfl, rfl, rfl⟩
  | cons n ns ih =>
    have hstep := step_eraseType b n
    rw [List.map_cons]
    rcases hn : n.step b with f | ⟨b', s⟩
    · rw [execute_of_error hn, execute_of_error (hstep.trans hn)]
      exact ⟨rfl, rfl, rfl⟩
    · obtain ⟨hbindings, houtput, hfault⟩ := ih b'
      rw [execute_of_ok hn, execute_of_ok (hstep.trans hn)]
      exact ⟨hbindings, by rw [houtput], hfault⟩

/-- **Effect**: statements without a fault leave the initial names and the declared ones; each
declared name has the value of its last declaration, each other name the value that it had; and the
text is made up of the printed values. Statements that differ only in their declared data types
leave the same table and the same text. -/
theorem execute_has_effect (b : Bindings) (ns : List Node) (h : (execute b ns).fault = none) :
    (execute b ns).HasEffect b ns ∧
      ∀ ns', ns'.map Node.eraseType = ns.map Node.eraseType →
        (execute b ns').fault = none ∧ (execute b ns').bindings = (execute b ns).bindings ∧
          (execute b ns').output = (execute b ns).output := by
  refine ⟨⟨mem_bindings_iff h, fun x => exists_last_declaration h,
    fun x => bindings_of_not_declared h, exists_printedValues h⟩, fun ns' htypes => ?_⟩
  obtain ⟨hbindings, houtput, hfault⟩ := execute_map_eraseType b ns
  obtain ⟨hbindings', houtput', hfault'⟩ := execute_map_eraseType b ns'
  rw [htypes] at hbindings' houtput' hfault'
  refine ⟨?_, ?_, ?_⟩
  · rw [← hfault', hfault, h]
  · rw [← hbindings', hbindings]
  · rw [← houtput', houtput]

/-- A declaration that refers to the value that it replaces, twice for one name, with another name
in between. -/
def redeclarations : List Node :=
  [.declare "x" "teksto" (.binary "+" (.name "x") (.text "b")), .print (.name "x"),
    .declare "y" "teksto" (.name "x"), .declare "x" "teksto" (.binary "+" (.name "x") (.name "x")),
    .print (.binary "+" (.name "x") (.name "z"))]

/-- The same statements with other data types. -/
def otherTypes : List Node :=
  [.declare "x" "bilang" (.binary "+" (.name "x") (.text "b")), .print (.name "x"),
    .declare "y" "" (.name "x"), .declare "x" "y" (.binary "+" (.name "x") (.name "x")),
    .print (.binary "+" (.name "x") (.name "z"))]

/-- Bindings of `x` and `z`. -/
def tableOfTwo : Bindings := ((∅ : Bindings).insert "x" (.text "a")).insert "z" (.text "!")

theorem redeclarations_have_effect :
    (execute tableOfTwo redeclarations).fault = none ∧
    (execute tableOfTwo redeclarations).HasEffect tableOfTwo redeclarations ∧
    (execute tableOfTwo redeclarations).bindings["z"]? = some (.text "!") ∧
    (execute tableOfTwo otherTypes).bindings["x"]? = some (.text "abab") ∧
    (execute tableOfTwo otherTypes).output = "ab\nabab!\n" := by
  have hfault : (execute tableOfTwo redeclarations).fault = none := rfl
  obtain ⟨heffect, htypes⟩ := execute_has_effect tableOfTwo redeclarations hfault
  obtain ⟨-, hbindings, houtput⟩ := htypes otherTypes rfl
  refine ⟨hfault, heffect, ?_, ?_, ?_⟩
  · exact heffect.kept "z" (by decide)
  · rw [hbindings]
    rfl
  · rw [houtput]
    rfl

end Bagay
