import Bagay.Proofs.Execution
import Mathlib.Data.List.Forall2
import Mathlib.Logic.Function.Basic

/-!
# Kinds decide which programs fail

An analysis that keeps only the kind of each bound name, a number or a text, and never looks at a
value, a literal or a declared data type, goes through a program exactly as the execution does: it
stops at the same statement, for the same reason and with the same message, and ends with the kinds
of the bindings.

The two are compared by `Simulates R`, which relates results by `R` and faults by `Fault.Shows`: the
fault of the execution is the one that the analysis found, with values in the place of kinds.

* `Simulates.bind`: a sequence of steps simulates, if each step does.
* `eval_simulates_kind`, `step_simulates_kindStep`: an expression and a statement.
* `execute_simulates_analyse`: a whole run, by induction on its statements.
* `Stmt.SameForm`: statements that differ in literals and declared data types only; the analysis
  does not tell them apart (`analyse_eq_of_sameForm`).
* `execute_stops_as_analysis`: the result.
-/

namespace Bagay

/-! ### The analysis -/

/-- The kinds of values. -/
inductive Value.Kind
  | number
  | text
  deriving DecidableEq, Repr

/-- The printed name of a kind. -/
def Value.Kind.name : Value.Kind → String
  | number => "Number"
  | text => "Text"

/-- The kind of a value. -/
def Value.kind : Value → Value.Kind
  | number _ => .number
  | text _ => .text

/-- The kinds of the bound names. -/
abbrev Kinds := String → Option Value.Kind

/-- The kinds of the names that a table binds. -/
def Bindings.kinds (b : Bindings) : Kinds := fun n => b[n]?.map Value.kind

/-- Why the analysis fails. -/
inductive KindFault
  /-- A name without a kind. -/
  | undefined (name : String)
  /-- An operator between kinds that it does not take. -/
  | mismatch (op : Op) (left right : Value.Kind)
  deriving DecidableEq, Repr

namespace KindFault

/-- The class of the fault that the analysis found. -/
def toClass : KindFault → Fault.Class
  | undefined _ => .undefined
  | mismatch .. => .mismatch

/-- The message of the fault that the analysis found, in a file. -/
def message (file : Option String) : KindFault → String
  | undefined name => "Undefined variable '" ++ name ++ "'" ++ Fault.place file
  | mismatch op left right =>
    "Unsupported operand types for '" ++ op.symbol ++ "': " ++ left.name ++ " and " ++
      right.name ++ Fault.place file

end KindFault

/-- The kind of an operator between two kinds: equal kinds are added, numbers are subtracted. -/
def Op.kind? : Op → Value.Kind → Value.Kind → Option Value.Kind
  | .add, x, y => if x = y then some x else none
  | .sub, .number, .number => some .number
  | .sub, _, _ => none

/-- The kind of an expression: of its left operand first, then of its right one. -/
def Expr.kind (k : Kinds) : Expr → Except KindFault Value.Kind
  | number _ => .ok .number
  | text _ => .ok .text
  | name n =>
    match k n with
    | some x => .ok x
    | none => .error (.undefined n)
  | binary op left right => do
    let x ← left.kind k
    let y ← right.kind k
    match op.kind? x y with
    | some z => .ok z
    | none => .error (.mismatch op x y)

/-- The kinds after a statement. -/
def Stmt.kindStep (k : Kinds) : Stmt → Except KindFault Kinds
  | declare n _ e => do
    let x ← e.kind k
    return Function.update k n (some x)
  | print e => do
    let _ ← e.kind k
    return k

/-- What the analysis finds: the kinds at the end, and the fault with the index of its statement. -/
structure Analysis where
  kinds : Kinds
  fault : Option (Nat × KindFault)

/-- Where and why the analysis stopped, in a file. -/
def Analysis.stop? (file : Option String) (a : Analysis) : Option Stop :=
  a.fault.map fun p => ⟨p.1, p.2.toClass, p.2.message file⟩

/-- Goes through statements in order, up to the first fault. -/
def analyse (k : Kinds) : List Stmt → Analysis
  | [] => ⟨k, none⟩
  | s :: ss =>
    match s.kindStep k with
    | .error g => ⟨k, some (0, g)⟩
    | .ok k' =>
      let a := analyse k' ss
      { a with fault := a.fault.map fun p => (p.1 + 1, p.2) }

/-! ### Simulation -/

/-- The fault of an execution is the one that the analysis found. -/
inductive Fault.Shows : Fault → KindFault → Prop
  | undefined (name : String) : Shows (.undefined name) (.undefined name)
  | mismatch (op : Op) (x y : Value) :
      Shows (.mismatch op.symbol (.value x) (.value y)) (.mismatch op x.kind y.kind)

theorem Fault.Shows.toClass_eq {f : Fault} {g : KindFault} (h : f.Shows g) :
    f.toClass = g.toClass := by
  cases h <;> rfl

theorem className_value (v : Value) : (Node.value v).className = v.kind.name := by
  cases v <;> rfl

theorem Fault.Shows.message_eq {f : Fault} {g : KindFault} (h : f.Shows g) (file : Option String) :
    f.message file = g.message file := by
  unfold Fault.message KindFault.message
  cases h with
  | undefined name => exact Eq.refl _
  | mismatch op x y => simp only [className_value]

/-- Both succeed, with results related by `R`, or both fail, with the same fault. -/
inductive Simulates {α β : Type} (R : α → β → Prop) : Except Fault α → Except KindFault β → Prop
  | ok {a : α} {b : β} (h : R a b) : Simulates R (.ok a) (.ok b)
  | error {f : Fault} {g : KindFault} (h : f.Shows g) : Simulates R (.error f) (.error g)

theorem Simulates.exists_shows {α β : Type} {R : α → β → Prop} {f : Fault} {y : Except KindFault β}
    (h : Simulates R (.error f) y) : ∃ g, f.Shows g := by
  cases h with
  | error h => exact ⟨_, h⟩

/-- **Sequences**: related results are followed by related steps. -/
theorem Simulates.bind {α β γ δ : Type} {R : α → β → Prop} {S : γ → δ → Prop} {x : Except Fault α}
    {y : Except KindFault β} {f : α → Except Fault γ} {g : β → Except KindFault δ}
    (h : Simulates R x y) (hfg : ∀ a b, R a b → Simulates S (f a) (g b)) :
    Simulates S (x >>= f) (y >>= g) := by
  cases h with
  | ok h => exact hfg _ _ h
  | error h => exact .error h

theorem map_kind_apply (op : Op) (x y : Value) :
    (op.apply x y).map Value.kind = op.kind? x.kind y.kind := by
  cases op <;> cases x <;> cases y <;> rfl

theorem applySymbol_simulates_kind (op : Op) (x y : Value) :
    Simulates (fun v k => v.kind = k) (Node.applySymbol op.symbol x y)
      (match op.kind? x.kind y.kind with
        | some z => .ok z
        | none => .error (.mismatch op x.kind y.kind)) := by
  rw [Node.applySymbol, Op.ofSymbol?_symbol, ← map_kind_apply]
  simp only [Node.apply]
  rcases op.apply x y with _ | v
  · exact .error (.mismatch op x y)
  · exact .ok rfl

/-- The value of an expression has the kind that the analysis gives it. -/
theorem eval_simulates_kind (b : Bindings) (e : Expr) :
    Simulates (fun v k => v.kind = k) (e.toNode.eval b) (e.kind b.kinds) := by
  induction e with
  | number x => exact .ok rfl
  | text s => exact .ok rfl
  | name n =>
    simp only [Expr.toNode, Node.eval, Expr.kind, Bindings.kinds]
    rcases b[n]? with _ | v
    · exact .error (.undefined n)
    · exact .ok rfl
  | binary op left right ihl ihr =>
    refine ihl.bind fun x _ hx => ihr.bind fun y _ hy => ?_
    subst hx hy
    exact applySymbol_simulates_kind op x y

theorem kinds_insert (b : Bindings) (n : String) (v : Value) :
    Bindings.kinds (b.insert n v) = Function.update b.kinds n (some v.kind) := by
  funext m
  by_cases h : m = n
  · subst h
    simp [Bindings.kinds]
  · rw [Function.update_of_ne h]
    simp [Bindings.kinds, Std.TreeMap.getElem?_insert, Ne.symm h]

/-- A statement leaves bindings of the kinds that the analysis goes on with. -/
theorem step_simulates_kindStep (b : Bindings) (s : Stmt) :
    Simulates (fun p k => Bindings.kinds p.1 = k) (s.toNode.step b) (s.kindStep b.kinds) := by
  cases s with
  | declare n type e =>
    refine (eval_simulates_kind b e).bind fun v _ hv => .ok ?_
    subst hv
    exact kinds_insert b n v
  | print e => exact (eval_simulates_kind b e).bind fun v _ _ => .ok rfl

/-- **Runs**: an execution stops where the analysis does, and has the same kinds at its end. -/
theorem execute_simulates_analyse (b : Bindings) (ss : List Stmt) (file : Option String) :
    (execute b (ss.map Stmt.toNode)).stop? file = (analyse b.kinds ss).stop? file ∧
      (execute b (ss.map Stmt.toNode)).bindings.kinds = (analyse b.kinds ss).kinds := by
  induction ss generalizing b with
  | nil => exact ⟨rfl, rfl⟩
  | cons s ss ih =>
    have hs := step_simulates_kindStep b s
    rw [List.map_cons, analyse]
    rcases hn : s.toNode.step b with f | ⟨b', t⟩ <;> rcases hk : s.kindStep b.kinds with g | k' <;>
      rw [hn, hk] at hs <;> cases hs
    · next hfg =>
      rw [stop?_execute_of_error file hn, execute_of_error hn, hfg.toClass_eq, hfg.message_eq]
      exact ⟨rfl, rfl⟩
    · next hb =>
      subst hb
      rw [stop?_execute_of_ok file hn, execute_of_ok hn, (ih b').1]
      refine ⟨?_, (ih b').2⟩
      simp only [Analysis.stop?, Option.map_map]
      rfl

/-! ### Programs of the same form -/

/-- Expressions that differ in the contents of their literals only. -/
inductive Expr.SameForm : Expr → Expr → Prop
  | number (x y : Float) : SameForm (.number x) (.number y)
  | text (s t : String) : SameForm (.text s) (.text t)
  | name (n : String) : SameForm (.name n) (.name n)
  | binary (op : Op) {left left' right right' : Expr} (hl : SameForm left left')
      (hr : SameForm right right') : SameForm (.binary op left right) (.binary op left' right')

/-- Statements that differ in the contents of their literals and in declared data types only. -/
inductive Stmt.SameForm : Stmt → Stmt → Prop
  | declare (n type type' : String) {e e' : Expr} (h : e.SameForm e') :
      SameForm (.declare n type e) (.declare n type' e')
  | print {e e' : Expr} (h : e.SameForm e') : SameForm (.print e) (.print e')

theorem Expr.SameForm.kind_eq {e e' : Expr} (h : e.SameForm e') (k : Kinds) :
    e.kind k = e'.kind k := by
  induction h with
  | number x y => rfl
  | text s t => rfl
  | name n => rfl
  | binary op hl hr ihl ihr => rw [Expr.kind, Expr.kind, ihl, ihr]

theorem Stmt.SameForm.kindStep_eq {s s' : Stmt} (h : s.SameForm s') (k : Kinds) :
    s.kindStep k = s'.kindStep k := by
  cases h with
  | declare n type type' h => rw [Stmt.kindStep, Stmt.kindStep, h.kind_eq]
  | print h => rw [Stmt.kindStep, Stmt.kindStep, h.kind_eq]

theorem analyse_eq_of_sameForm {ss ss' : List Stmt} (h : List.Forall₂ Stmt.SameForm ss ss')
    (k : Kinds) : analyse k ss = analyse k ss' := by
  induction h generalizing k with
  | nil => rfl
  | cons hs hss ih => simp only [analyse, hs.kindStep_eq, ih]

/-! ### The result -/

/-- **Kinds decide**: an execution succeeds exactly if the analysis of its kinds does; otherwise it
stops at the same statement, with a fault of the same class and with the same message; and in both
cases its bindings end with the kinds that the analysis found. So a program of the same form stops
at the same statement in the same way. -/
theorem execute_stops_as_analysis (b : Bindings) (ss : List Stmt) (file : Option String) :
    let r := execute b (ss.map Stmt.toNode)
    let a := analyse b.kinds ss
    (r.fault = none ↔ a.fault = none) ∧ r.stop? file = a.stop? file ∧ r.bindings.kinds = a.kinds ∧
      ∀ ss', List.Forall₂ Stmt.SameForm ss ss' →
        (execute b (ss'.map Stmt.toNode)).stop? file = r.stop? file := by
  intro r a
  obtain ⟨hstop, hkinds⟩ := execute_simulates_analyse b ss file
  refine ⟨?_, hstop, hkinds, fun ss' h => ?_⟩
  · rw [← r.stop?_eq_none_iff file, hstop]
    simp [Analysis.stop?, a]
  · rw [(execute_simulates_analyse b ss' file).1, ← analyse_eq_of_sameForm h]
    exact hstop.symm

/-- A number of the wrong declared data type, then a sum of a mismatch and an unbound name. -/
def mixedProgram : List Stmt :=
  [.declare "x" "teksto" (.number 1),
    .print (.binary .add (.binary .sub (.name "x") (.text "a")) (.name "y"))]

/-- The same program with other literals, one of which is not a number at all. -/
def otherLiterals : List Stmt :=
  [.declare "x" "bilang" (.number (0 / 0)),
    .print (.binary .add (.binary .sub (.name "x") (.text "")) (.name "y"))]

theorem mixedProgram_stops_at_mismatch :
    List.Forall₂ Stmt.SameForm mixedProgram otherLiterals ∧
    ∀ ss ∈ [mixedProgram, otherLiterals],
      (execute ∅ (ss.map Stmt.toNode)).stop? (some "a.hry") =
        some ⟨1, .mismatch, "Unsupported operand types for '-': Number and Text in a.hry"⟩ := by
  have hform : List.Forall₂ Stmt.SameForm mixedProgram otherLiterals :=
    .cons (.declare _ _ _ (.number _ _)) (.cons (.print (.binary _ (.binary _ (.name _) (.text _ _))
      (.name _))) .nil)
  obtain ⟨-, hstop, -, hsame⟩ := execute_stops_as_analysis ∅ mixedProgram (some "a.hry")
  have ha : (analyse (Bindings.kinds ∅) mixedProgram).stop? (some "a.hry") =
      some ⟨1, .mismatch, "Unsupported operand types for '-': Number and Text in a.hry"⟩ := by
    decide
  refine ⟨hform, fun ss hss => ?_⟩
  rcases List.mem_pair.mp hss with rfl | rfl
  · rw [hstop, ha]
  · rw [hsame _ hform, hstop, ha]

end Bagay
