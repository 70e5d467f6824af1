import Bagay.Proofs.Kind

/-!
# Leaves decide whether an expression has a value

Operators look at their two operands only, but together they ask for the same kind at all leaves of
a tree: an expression has a value exactly if its leaves are all numbers, or are all texts and
nothing is subtracted. The nesting of the tree makes no difference to this, and for texts it makes
none to the value either, which is made up of the leaves from left to right.

The first part is about kinds alone, so it is proved of the analysis of kinds (`kind_eq_ok_iff`) and
carried over by `eval_simulates_kind`; the second one is an induction on the tree
(`eval_of_leafValues_eq`).

* `Expr.leaves`, `Expr.leafValues`, `Expr.ops`: the leaves of an expression, their values and the
  operators between them.
* `Expr.LeavesOf`: all leaves have values of one kind.
* `Op.kind?_eq_some_iff`: an operator wants its operands to be of one kind, which is that of its
  value.
* `exists_eval_iff_leaves`: the kind of an expression, by its leaves.
* `expr_evaluates_by_its_leaves`: the result.
-/

namespace Bagay

namespace Expr

/-- The literals and names of an expression, from left to right. -/
def leaves : Expr → List Expr
  | binary _ left right => left.leaves ++ right.leaves
  | e => [e]

/-- The operators of an expression, from left to right. -/
def ops : Expr → List Op
  | binary op left right => left.ops ++ op :: right.ops
  | _ => []

/-- The value of a literal or a name, if it has one. -/
def leafValue? (b : Bindings) : Expr → Option Value
  | number x => some (.number x)
  | text s => some (.text s)
  | name n => b[n]?
  | binary .. => none

/-- The values of the leaves, from left to right. -/
def leafValues (b : Bindings) (e : Expr) : List (Option Value) := e.leaves.map (leafValue? b)

/-- All leaves have values of the kind `k`. -/
def LeavesOf (b : Bindings) (k : Value.Kind) (e : Expr) : Prop :=
  ∀ v ∈ e.leafValues b, v.map Value.kind = some k

theorem leavesOf_of_leaf {b : Bindings} {k : Value.Kind} {e : Expr} (h : e.leaves = [e]) :
    e.LeavesOf b k ↔ (e.leafValue? b).map Value.kind = some k := by
  unfold LeavesOf leafValues
  rw [h, List.map_singleton, List.forall_mem_singleton]

theorem leafValues_binary (b : Bindings) (op : Op) (left right : Expr) :
    (binary op left right).leafValues b = left.leafValues b ++ right.leafValues b := by
  unfold leafValues
  rw [leaves, List.map_append]

theorem leavesOf_binary {b : Bindings} {k : Value.Kind} {op : Op} {left right : Expr} :
    (binary op left right).LeavesOf b k ↔ left.LeavesOf b k ∧ right.LeavesOf b k := by
  unfold LeavesOf
  rw [leafValues_binary, List.forall_mem_append]

theorem sub_not_mem_ops_binary {op : Op} {left right : Expr} :
    .sub ∉ (binary op left right).ops ↔ op ≠ .sub ∧ .sub ∉ left.ops ∧ .sub ∉ right.ops := by
  simp only [ops, List.mem_append, List.mem_cons, not_or, ne_eq, eq_comm]
  exact and_left_comm

theorem LeavesOf.mem_bindings {b : Bindings} {k : Value.Kind} {e : Expr} (h : e.LeavesOf b k)
    {n : String} (hn : name n ∈ e.leaves) : n ∈ b := by
  have hvalue : b[n]?.map Value.kind = some k := h _ (List.mem_map_of_mem hn)
  obtain ⟨v, hv, -⟩ := Option.map_eq_some_iff.mp hvalue
  rw [Std.TreeMap.mem_iff_isSome_getElem?, hv]
  rfl

end Expr

variable {b : Bindings} {e : Expr} {k : Value.Kind}

/-! ### The kind of an expression -/

/-- An operator takes operands of one kind and keeps it; texts are not subtracted. -/
theorem Op.kind?_eq_some_iff {op : Op} {x y : Value.Kind} :
    op.kind? x y = some k ↔ (x = k ∧ y = k) ∧ (k = .text → op ≠ .sub) := by
  cases op <;> cases x <;> cases y <;> cases k <;> decide

theorem kind_binary_eq_ok_iff {ks : Kinds} {op : Op} {left right : Expr} :
    (Expr.binary op left right).kind ks = .ok k ↔
      ∃ x y, left.kind ks = .ok x ∧ right.kind ks = .ok y ∧ op.kind? x y = some k := by
  rw [Expr.kind, Except.bind_eq_ok_iff]
  constructor
  · rintro ⟨x, hx, h⟩
    obtain ⟨y, hy, h⟩ := Except.bind_eq_ok_iff.mp h
    rcases hop : op.kind? x y with _ | z
    · rw [hop] at h
      cases h
    · rw [hop] at h
      cases h
      exact ⟨x, y, hx, hy, hop⟩
  · rintro ⟨x, y, hx, hy, hop⟩
    exact ⟨x, hx, Except.bind_eq_ok_iff.mpr ⟨y, hy, by rw [hop]⟩⟩

/-- **Kinds**: an expression is of a kind if all of its leaves are, and no texts are subtracted. -/
theorem kind_eq_ok_iff :
    e.kind b.kinds = .ok k ↔ e.LeavesOf b k ∧ (k = .text → .sub ∉ e.ops) := by
  induction e generalizing k with
  | number x =>
    rw [Expr.leavesOf_of_leaf rfl]
    simp [Expr.kind, Expr.leafValue?, Expr.ops, Value.kind]
  | text s =>
    rw [Expr.leavesOf_of_leaf rfl]
    simp [Expr.kind, Expr.leafValue?, Expr.ops, Value.kind]
  | name n =>
    rw [Expr.leavesOf_of_leaf rfl, Expr.kind, Bindings.kinds, Expr.leafValue?]
    rcases b[n]?.map Value.kind with _ | x <;> simp [Expr.ops]
  | binary op left right ihl ihr =>
    rw [kind_binary_eq_ok_iff, Expr.leavesOf_binary, Expr.sub_not_mem_ops_binary]
    simp only [ihl, ihr, Op.kind?_eq_some_iff]
    constructor
    · rintro ⟨x, y, ⟨hl, hlops⟩, ⟨hr, hrops⟩, ⟨rfl, rfl⟩, hop⟩
      exact ⟨⟨hl, hr⟩, fun ht => ⟨hop ht, hlops ht, hrops ht⟩⟩
    · rintro ⟨⟨hl, hr⟩, hops⟩
      exact ⟨k, k, ⟨hl, fun ht => (hops ht).2.1⟩, ⟨hr, fun ht => (hops ht).2.2⟩, ⟨rfl, rfl⟩,
        fun ht => (hops ht).1⟩

theorem exists_eval_iff_leaves : (∃ v, e.toNode.eval b = .ok v ∧ v.kind = k) ↔
    e.LeavesOf b k ∧ (k = .text → .sub ∉ e.ops) := by
  rw [← kind_eq_ok_iff]
  -- the evaluation and the analysis both succeed or both fail
  have hsim := eval_simulates_kind b e
  rcases hv : e.toNode.eval b with f | v <;> rcases hk : e.kind b.kinds with g | k' <;>
    rw [hv, hk] at hsim <;> cases hsim
  · simp
  · next hkind =>
    subst hkind
    simp

/-! ### The value of texts -/

theorem eval_of_leafValue? {v : Value} (h : e.leafValue? b = some v) : e.toNode.eval b = .ok v := by
  cases e with
  | number x => exact congrArg Except.ok (Option.some.inj h)
  | text s => exact congrArg Except.ok (Option.some.inj h)
  | name n =>
    rw [Expr.leafValue?] at h
    rw [Expr.toNode, Node.eval, h]
  | binary op left right => cases h

theorem eval_of_leaf {ts : List String} (hleaf : e.leaves = [e])
    (h : e.leafValues b = ts.map fun t => some (.text t)) :
    e.toNode.eval b = .ok (.text (String.join ts)) := by
  rw [Expr.leafValues, hleaf, List.map_singleton] at h
  obtain ⟨t, rfl, ht⟩ := List.map_eq_singleton_iff.mp h.symm
  have hjoin : String.join [t] = t := by simp
  rw [hjoin]
  exact eval_of_leafValue? ht.symm

theorem eval_binary_add_of_texts {left right : Expr} {s t : String}
    (hl : left.toNode.eval b = .ok (.text s)) (hr : right.toNode.eval b = .ok (.text t)) :
    (Expr.binary .add left right).toNode.eval b = .ok (.text (s ++ t)) := by
  rw [Expr.toNode, Node.eval, hl, hr]
  rfl

/-- **Texts**: they are joined from left to right, whatever the nesting is. -/
theorem eval_of_leafValues_eq {ts : List String}
    (h : e.leafValues b = ts.map fun t => some (.text t)) (hops : .sub ∉ e.ops) :
    e.toNode.eval b = .ok (.text (String.join ts)) := by
  induction e generalizing ts with
  | number x => exact eval_of_leaf rfl h
  | text s => exact eval_of_leaf rfl h
  | name n => exact eval_of_leaf rfl h
  | binary op left right ihl ihr =>
    rw [Expr.leafValues_binary] at h
    rw [Expr.sub_not_mem_ops_binary] at hops
    obtain ⟨us, vs, rfl, hus, hvs⟩ := List.map_eq_append_iff.mp h.symm
    obtain ⟨hop, hlops, hrops⟩ := hops
    obtain rfl : op = .add := by
      cases op with
      | add => rfl
      | sub => exact absurd rfl hop
    rw [String.join_append]
    exact eval_binary_add_of_texts (ihl hus.symm hlops) (ihr hvs.symm hrops)

theorem exists_texts_of_forall {vs : List (Option Value)}
    (h : ∀ v ∈ vs, v.map Value.kind = some .text) :
    ∃ ts : List String, vs = ts.map fun t => some (.text t) := by
  induction vs with
  | nil => exact ⟨[], rfl⟩
  | cons v vs ih =>
    rw [List.forall_mem_cons] at h
    obtain ⟨ts, rfl⟩ := ih h.2
    obtain ⟨w, rfl, hw⟩ := Option.map_eq_some_iff.mp h.1
    cases w with
    | number x => cases hw
    | text t => exact ⟨t :: ts, rfl⟩

/-- The value of an expression is a text exactly if its leaves are texts and nothing is subtracted,
and then it is made up of them. -/
theorem eval_eq_text_iff {s : String} : e.toNode.eval b = .ok (.text s) ↔
    .sub ∉ e.ops ∧ ∃ ts : List String, e.leafValues b = (ts.map fun t => some (.text t)) ∧
      s = String.join ts := by
  constructor
  · intro h
    obtain ⟨hleaves, hops⟩ := exists_eval_iff_leaves.mp ⟨_, h, rfl⟩
    obtain ⟨ts, hts⟩ := exists_texts_of_forall hleaves
    have hjoin := eval_of_leafValues_eq hts (hops rfl)
    rw [h] at hjoin
    cases hjoin
    exact ⟨hops rfl, ts, hts, rfl⟩
  · rintro ⟨hops, ts, hts, rfl⟩
    exact eval_of_leafValues_eq hts hops

/-! ### The result -/

/-- **Leaves**: an expression has a value exactly if its names are bound and its leaves are all
numbers, or are all texts and nothing is subtracted. The value is of the kind of the leaves; if this
is a text, it is made up of the leaves from left to right, and so any other nesting of the same
leaves has the same value. -/
theorem expr_evaluates_by_its_leaves (b : Bindings) (e : Expr) :
    ((∃ v, e.toNode.eval b = .ok v) ↔ (∀ n, .name n ∈ e.leaves → n ∈ b) ∧
      (e.LeavesOf b .number ∨ e.LeavesOf b .text ∧ .sub ∉ e.ops)) ∧
    (∀ v, e.toNode.eval b = .ok v → e.LeavesOf b v.kind) ∧
    (∀ s, e.toNode.eval b = .ok (.text s) ↔ .sub ∉ e.ops ∧ ∃ ts : List String,
      e.leafValues b = (ts.map fun t => some (.text t)) ∧ s = String.join ts) ∧
    ∀ e' : Expr, e.LeavesOf b .text → e'.leafValues b = e.leafValues b → .sub ∉ e.ops →
      .sub ∉ e'.ops → ∃ s, e.toNode.eval b = .ok (.text s) ∧ e'.toNode.eval b = .ok (.text s) := by
  refine ⟨⟨?_, ?_⟩, fun v hv => ?_, fun s => eval_eq_text_iff, fun e' htexts heq hops hops' => ?_⟩
  · rintro ⟨v, hv⟩
    obtain ⟨hleaves, hops⟩ := exists_eval_iff_leaves.mp ⟨v, hv, rfl⟩
    refine ⟨fun n => hleaves.mem_bindings, ?_⟩
    cases hk : v.kind with
    | number => exact .inl (hk ▸ hleaves)
    | text => exact .inr ⟨hk ▸ hleaves, hops hk⟩
  · rintro ⟨-, hnumbers | ⟨htexts, hops⟩⟩
    · obtain ⟨v, hv, -⟩ := exists_eval_iff_leaves.mpr ⟨hnumbers, fun ht => by cases ht⟩
      exact ⟨v, hv⟩
    · obtain ⟨v, hv, -⟩ := exists_eval_iff_leaves.mpr ⟨htexts, fun _ => hops⟩
      exact ⟨v, hv⟩
  · exact (exists_eval_iff_leaves.mp ⟨v, hv, rfl⟩).1
  · obtain ⟨ts, hts⟩ := exists_texts_of_forall htexts
    exact ⟨_, eval_of_leafValues_eq hts hops, eval_of_leafValues_eq (heq.trans hts) hops'⟩

/-- `"a" + x + "c"`, nested to the left. -/
def leftNested : Expr := .binary .add (.binary .add (.text "a") (.name "x")) (.text "c")

/-- The same leaves, one of them by its value, nested to the right. -/
def rightNested : Expr := .binary .add (.text "a") (.binary .add (.text "b") (.text "c"))

/-- A text for the name `x`. -/
def textTable : Bindings := (∅ : Bindings).insert "x" (.text "b")

theorem leftNested_evaluates_as_rightNested :
    leftNested.LeavesOf textTable .text ∧
    rightNested.leafValues textTable = leftNested.leafValues textTable ∧
    ∃ s, leftNested.toNode.eval textTable = .ok (.text s) ∧
      rightNested.toNode.eval textTable = .ok (.text s) := by
  have hvalues : leftNested.leafValues textTable =
      [some (.text "a"), some (.text "b"), some (.text "c")] := rfl
  have hleaves : leftNested.LeavesOf textTable .text := by
    unfold Expr.LeavesOf
    rw [hvalues]
    decide
  have heq : rightNested.leafValues textTable = leftNested.leafValues textTable := rfl
  obtain ⟨-, -, -, hsame⟩ := expr_evaluates_by_its_leaves textTable leftNested
  exact ⟨hleaves, heq, hsame rightNested hleaves heq (by decide) (by decide)⟩

end Bagay
