import Bagay.Machine
import Bagay.Proofs.Execution
import Mathlib.Tactic.Common

/-!
# Free names

A name is free in a list of statements if one of them refers to it before any of them declares it. A
run depends on the bindings that it finds only through the free names of its statements: two runs
that find the same values there print the same text and stop at the same statement for the same
reason, or do not stop at all. What they leave in the bindings is the same for the free names and
for the names declared on the way; every other name is left alone.

* `eval_eq_of_agree`, `step_of_agree`: an expression and a statement depend on the names that they
  refer to.
* `execute_of_agree`: a run, by induction on its statements. The two tables may differ in a name
  until it is declared, so the induction carries the names on which they agree by now.
* `runs_depend_on_free_names`: the result, and what it says of programs without free names.
-/

namespace Bagay

/-! ### The names of a statement -/

namespace Node

/-- The names in an expression. -/
def names : Node → List String
  | name n => [n]
  | binary _ left right => left.names ++ right.names
  | _ => []

/-- The names that a statement refers to: those in its expression. -/
def refers : Node → List String
  | declare _ _ e => e.names
  | print e => e.names
  | _ => []

end Node

/-- A name is free in a list of statements if one of them refers to it, and none before that one
declares it. A declaration does not come before its own expression. -/
def IsFree (x : String) (ns : List Node) : Prop :=
  ∃ before n after, ns = before ++ n :: after ∧ x ∈ n.refers ∧ ∀ m ∈ before, m.declared? ≠ some x

theorem not_isFree_nil (x : String) : ¬ IsFree x [] := by
  rintro ⟨before, n, after, h, -⟩
  simp at h

theorem isFree_cons {x : String} {n : Node} {ns : List Node} :
    IsFree x (n :: ns) ↔ x ∈ n.refers ∨ n.declared? ≠ some x ∧ IsFree x ns := by
  constructor
  · rintro ⟨before, n', after, h, hx, hbefore⟩
    rcases before with _ | ⟨m, before⟩
    · obtain ⟨rfl, rfl⟩ := List.cons_eq_cons.mp h
      exact .inl hx
    · obtain ⟨rfl, rfl⟩ := List.cons_eq_cons.mp h
      rw [List.forall_mem_cons] at hbefore
      exact .inr ⟨hbefore.1, before, n', after, rfl, hx, hbefore.2⟩
  · rintro (hx | ⟨hn, before, n', after, rfl, hx, hbefore⟩)
    · exact ⟨[], n, ns, rfl, hx, by simp⟩
    · exact ⟨n :: before, n', after, rfl, hx, by simpa using ⟨hn, hbefore⟩⟩

/-! ### Tables that agree -/

section Agree

variable {b d : Bindings}

/-- The value of an expression depends on its names only. -/
theorem eval_eq_of_agree {e : Node} (h : ∀ x ∈ e.names, b[x]? = d[x]?) : e.eval b = e.eval d := by
  induction e with
  | name n =>
    have hn : b[n]? = d[n]? := h n (by simp [Node.names])
    rw [Node.eval, Node.eval, hn]
  | binary symbol left right ihl ihr =>
    have hl : left.eval b = left.eval d := ihl fun x hx => h x (by simp [Node.names, hx])
    have hr : right.eval b = right.eval d := ihr fun x hx => h x (by simp [Node.names, hx])
    rw [Node.eval, Node.eval, hl, hr]
  | _ => rfl

/-- A statement depends on the names that it refers to, and makes two tables agree on the name that
it declares. -/
theorem step_of_agree {n : Node} (h : ∀ x ∈ n.refers, b[x]? = d[x]?) :
    (∃ f, n.step b = .error f ∧ n.step d = .error f) ∨
      ∃ b' d' s, n.step b = .ok (b', s) ∧ n.step d = .ok (d', s) ∧
        ∀ x, (b[x]? = d[x]? ∨ n.declared? = some x) → b'[x]? = d'[x]? := by
  cases n with
  | declare y type e =>
    have he : e.eval b = e.eval d := eval_eq_of_agree h
    rcases hv : e.eval d with f | v <;> rw [hv] at he
    · exact .inl ⟨f, step_declare_of_error he y type, step_declare_of_error hv y type⟩
    · refine .inr ⟨_, _, _, step_declare_of_ok he y type, step_declare_of_ok hv y type,
        fun x hx => ?_⟩
      by_cases hy : y = x
      · simp [hy]
      · have hbd : b[x]? = d[x]? := hx.resolve_right fun h => hy (Option.some.inj h)
        simp [Std.TreeMap.getElem?_insert, hy, hbd]
  | print e =>
    have he : e.eval b = e.eval d := eval_eq_of_agree h
    rcases hv : e.eval d with f | v <;> rw [hv] at he
    · exact .inl ⟨f, step_print_of_error he, step_print_of_error hv⟩
    · refine .inr ⟨_, _, _, step_print_of_ok he, step_print_of_ok hv, fun x hx => ?_⟩
      exact hx.resolve_right fun h => nomatch h
  | _ => exact .inl ⟨_, rfl, rfl⟩

/-- Two executions that look alike: they start the same statements, print the same text, and end
with the same fault or without one. -/
structure Execution.Alike (r r' : Execution) : Prop where
  started_eq : r.started = r'.started
  output_eq : r.output = r'.output
  fault_eq : r.fault = r'.fault

theorem Execution.Alike.stop?_eq {r r' : Execution} (h : r.Alike r') (file : Option String) :
    r.stop? file = r'.stop? file := by
  unfold Execution.stop?
  rw [h.fault_eq, h.started_eq]

theorem Execution.Alike.completed_eq {r r' : Execution} (h : r.Alike r') :
    r.completed = r'.completed := by
  unfold Execution.completed
  rw [h.fault_eq, h.started_eq]

/-- **Runs**: from tables that agree on the free names, executions look alike, and they end with
tables that agree on the names on which they agreed before and on those declared by then. -/
theorem execute_of_agree {ns : List Node} (h : ∀ x, IsFree x ns → b[x]? = d[x]?) :
    (execute b ns).Alike (execute d ns) ∧
      ∀ x, (b[x]? = d[x]? ∨ ∃ n ∈ (execute b ns).completed, n.declared? = some x) →
        (execute b ns).bindings[x]? = (execute d ns).bindings[x]? := by
  induction ns generalizing b d with
  | nil =>
    refine ⟨⟨rfl, rfl, rfl⟩, fun x hx => ?_⟩
    exact hx.resolve_right fun ⟨n, hn, _⟩ => nomatch hn
  | cons n ns ih =>
    rcases step_of_agree fun x hx => h x (isFree_cons.mpr (.inl hx)) with
      ⟨f, hb, hd⟩ | ⟨b', d', s, hb, hd, hagree⟩
    · rw [completed_execute_of_error hb, execute_of_error hb, execute_of_error hd]
      refine ⟨⟨rfl, rfl, rfl⟩, fun x hx => ?_⟩
      exact hx.resolve_right fun ⟨n, hn, _⟩ => nomatch hn
    · -- a name that is free in the rest was free before, unless this statement declares it
      have hfree : ∀ x, IsFree x ns → b'[x]? = d'[x]? := by
        intro x hx
        by_cases hn : n.declared? = some x
        · exact hagree x (.inr hn)
        · exact hagree x (.inl (h x (isFree_cons.mpr (.inr ⟨hn, hx⟩))))
      obtain ⟨hsame, htables⟩ := ih hfree
      rw [completed_execute_of_ok hb, execute_of_ok hb, execute_of_ok hd]
      refine ⟨⟨?_, ?_, hsame.fault_eq⟩, fun x hx => ?_⟩
      · rw [hsame.started_eq]
      · rw [hsame.output_eq]
      · simp only [List.mem_cons, exists_eq_or_imp] at hx
        rcases hx with hx | hx | hx
        · exact htables x (.inl (hagree x (.inl hx)))
        · exact htables x (.inl (hagree x (.inr hx)))
        · exact htables x (.inr hx)

end Agree

/-! ### Programs without free names -/

theorem Machine.exec_of_closed {ns : List Node} (h : ∀ x, ¬ IsFree x ns) (m m' : Machine) :
    (m.exec ns).result = (m'.exec ns).result ∧ (m.exec ns).output = (m'.exec ns).output ∧
      (m.exec ns).records = (m'.exec ns).records := by
  have hsame : (execute m.bindings ns).Alike (execute m'.bindings ns) :=
    (execute_of_agree fun x hx => absurd hx (h x)).1
  simp only [exec]
  rw [hsame.fault_eq, hsame.output_eq, hsame.started_eq]
  exact ⟨rfl, rfl, rfl⟩

/-- **Free names**: from two tables that agree on the free names, statements print the same text and
succeed, or stop at the same statement, with a fault of the same class and the same message. The
tables at the end agree on the free names and on the names that a completed statement declared, and
each of them keeps what it had for every name that no completed statement declared. So a source
without free names does the same on a machine with any bindings as on a fresh one. -/
theorem runs_depend_on_free_names :
    (∀ (ns : List Node) (file : Option String) (b d : Bindings),
      (∀ x, IsFree x ns → b[x]? = d[x]?) →
      let r := execute b ns
      let r' := execute d ns
      r.output = r'.output ∧ r.fault = r'.fault ∧ r.stop? file = r'.stop? file ∧
      (∀ x, (IsFree x ns ∨ ∃ n ∈ r.completed, n.declared? = some x) →
        r.bindings[x]? = r'.bindings[x]?) ∧
      ∀ x, (∀ n ∈ r.completed, n.declared? ≠ some x) →
        r.bindings[x]? = b[x]? ∧ r'.bindings[x]? = d[x]?) ∧
    ∀ (m : Machine) (verbose : Bool) (source : String) (ss : List Stmt),
      (parsed source).result = .ok ss →
      (∀ x, ¬ IsFree x (ss.map Stmt.toNode)) →
      let r := m.run verbose source
      let r' := (Machine.fresh m.file).run verbose source
      r.result = r'.result ∧ r.output = r'.output ∧ r.records = r'.records := by
  constructor
  · intro ns file b d h r r'
    obtain ⟨hsame, htables⟩ := execute_of_agree h
    refine ⟨hsame.output_eq, hsame.fault_eq, hsame.stop?_eq file, fun x hx => ?_, fun x hx => ?_⟩
    · exact htables x (hx.imp_left (h x))
    · have hx' : ∀ n ∈ r'.completed, n.declared? ≠ some x := hsame.completed_eq ▸ hx
      exact ⟨execute_frame hx, execute_frame hx'⟩
  · intro m verbose source ss hss hclosed r r'
    obtain ⟨hresult, houtput, hrecords⟩ := Machine.exec_of_closed hclosed m (.fresh m.file)
    simp only [r, r', Machine.run_of_ok hss]
    rw [hresult, houtput, hrecords]
    exact ⟨rfl, rfl, rfl⟩

/-- A declaration that refers to its own name, a name declared by then, and a declaration that
fails. The names `x` and `u` are free. -/
def selfReference : List Node :=
  [.declare "x" "teksto" (.binary "+" (.name "x") (.text "b")),
    .declare "y" "teksto" (.name "x"), .print (.name "y"), .declare "z" "teksto" (.name "u")]

/-- Bindings of `x`, `y` and `z`. -/
def fullTable : Bindings :=
  ((∅ : Bindings).insert "x" (.text "a")).insert "y" (.text "old") |>.insert "z" (.text "p")

/-- The same binding of `x`, none of `y` and another one of `z`. -/
def sparseTable : Bindings :=
  ((∅ : Bindings).insert "x" (.text "a")).insert "z" (.text "q")

/-- A source without free names. -/
def closedSource : String := "bagay x -> teksto = \"a\"; ipakita x + x"

theorem selfReference_on_two_tables :
    ((execute fullTable selfReference).output = (execute sparseTable selfReference).output ∧
      (execute fullTable selfReference).stop? (some "a.hry") =
        (execute sparseTable selfReference).stop? (some "a.hry") ∧
      (execute fullTable selfReference).bindings["y"]? =
        (execute sparseTable selfReference).bindings["y"]? ∧
      (execute fullTable selfReference).bindings["z"]? = some (.text "p") ∧
      (execute sparseTable selfReference).bindings["z"]? = some (.text "q")) ∧
    ((⟨none, fullTable⟩ : Machine).run false closedSource).output =
      ((Machine.fresh none).run false closedSource).output := by
  obtain ⟨hrun, hclosed⟩ := runs_depend_on_free_names
  have hfree : ∀ x, IsFree x selfReference ↔ x = "x" ∨ x = "u" := by
    intro x
    simp only [selfReference, isFree_cons, not_isFree_nil, Node.refers, Node.names, Node.declared?]
    grind
  have hagree : ∀ x, IsFree x selfReference → fullTable[x]? = sparseTable[x]? := by
    intro x hx
    rcases (hfree x).mp hx with rfl | rfl
    · rfl
    · rfl
  have hparse : (parsed closedSource).result =
      .ok [.declare "x" "teksto" (.text "a"), .print (.binary .add (.name "x") (.name "x"))] := by
    decide +kernel
  have hnone : ∀ x, ¬ IsFree x (List.map Stmt.toNode
      [.declare "x" "teksto" (.text "a"), .print (.binary .add (.name "x") (.name "x"))]) := by
    intro x
    simp only [List.map_cons, List.map_nil, Stmt.toNode, Expr.toNode, isFree_cons, not_isFree_nil,
      Node.refers, Node.names, Node.declared?]
    grind
  obtain ⟨houtput, -, hstop, hsame, hkept⟩ := hrun _ (some "a.hry") _ _ hagree
  obtain ⟨hp, hq⟩ := hkept "z" (by decide)
  refine ⟨⟨houtput, hstop, hsame "y" (.inr ?_), hp.trans rfl, hq.trans rfl⟩, ?_⟩
  · exact ⟨.declare "y" "teksto" (.name "x"), by decide, rfl⟩
  · exact (hclosed ⟨none, fullTable⟩ false _ _ hparse hnone).2.1

end Bagay
