import Bagay.Proofs.Execution
import Bagay.Session
import Mathlib.Tactic.Common

/-!
# Machines in one store

Machines that share a store could write to each other's bindings. They do not, since each of them
has a table that no other has: a new machine gets a table that is new in the store, and from then on
the machine writes to this table only.

* `Store.Changes`: what a machine may do to a store. It is closed under doing one thing after
  another, so that it goes from a statement (`exists_step_of_ok`) to a list of them
  (`changes_execute`).
* `Handle.agrees_perform`: in a store, a command does what it does at a machine that has its
  bindings to itself.
* `Session.Separate`: different names have different tables. A session starts so (`separate_empty`)
  and stays so (`Separate.step`).
* `Separate.report_step`, `Separate.machine_step_self`, `Separate.machine_step_of_ne`: a command at a
  name, seen from this name and from any other; `Separate.table_step`: which table it writes to.
-/

namespace Bagay

namespace Store

/-! ### What a machine may do to a store -/

/-- From `s` to `t`, the table at `a` becomes `b`, all other tables stay as they are, and `text` is
printed. -/
structure Changes (s : Store) (a : Nat) (b : Bindings) (text : String) (t : Store) : Prop where
  table_self : t.table a = b
  table_of_ne : ∀ a', a' ≠ a → t.table a' = s.table a'
  size : t.tables.size = s.tables.size
  printed : ∃ texts, t.printed = s.printed ++ texts ∧ String.join texts = text

variable {s t u : Store} {a : Nat} {b b' : Bindings} {text text' : String} {n : Node} {f : Fault}

theorem Changes.refl (s : Store) (a : Nat) : s.Changes a (s.table a) "" s :=
  ⟨rfl, fun _ _ => rfl, rfl, [], (List.append_nil _).symm, String.join_nil⟩

theorem Changes.trans (h : s.Changes a b text t) (h' : t.Changes a b' text' u) :
    s.Changes a b' (text ++ text') u := by
  obtain ⟨ws, hws, rfl⟩ := h.printed
  obtain ⟨ws', hws', rfl⟩ := h'.printed
  refine ⟨h'.table_self, fun a' ha' => ?_, h'.size.trans h.size, ws ++ ws', ?_, ?_⟩
  · rw [h'.table_of_ne a' ha', h.table_of_ne a' ha']
  · rw [hws', hws, List.append_assoc]
  · exact String.join_append

/-- What was printed from `s` to `t`, whatever had been printed before. -/
theorem Changes.printedSince (h : s.Changes a b text t) : t.printedSince s = text := by
  obtain ⟨ws, hws, rfl⟩ := h.printed
  rw [Store.printedSince, hws, List.drop_left]

theorem changes_bind (ha : a < s.tables.size) (x : String) (v : Value) :
    s.Changes a ((s.table a).insert x v) "" (s.bind a x v) where
  table_self := by simp [bind, table, Array.getElem_modify, ha]
  table_of_ne a' ha' := by simp [bind, table, Array.getElem?_modify, ha'.symm]
  size := Array.size_modify
  printed := ⟨[], (List.append_nil _).symm, String.join_nil⟩

theorem changes_print (s : Store) (a : Nat) (text : String) :
    s.Changes a (s.table a) text (s.print text) :=
  ⟨rfl, fun _ _ => rfl, rfl, [text], rfl, by simp⟩

theorem table_alloc_of_lt (ha : a < s.tables.size) : s.alloc.1.table a = s.table a := by
  simp [alloc, table, Array.getElem?_push, Nat.ne_of_lt ha]

theorem table_alloc_self (s : Store) : s.alloc.1.table s.alloc.2 = ∅ := by
  simp [alloc, table]

/-! ### Statements -/

/-- A statement without a fault does to the table at its address what it does to bindings. -/
theorem exists_step_of_ok (ha : a < s.tables.size) (h : n.step (s.table a) = .ok (b, text)) :
    ∃ t, s.step a n = .ok t ∧ s.Changes a b text t := by
  rcases Node.step_cases h with ⟨x, type, e, v, rfl, he, rfl, rfl⟩ | ⟨e, v, rfl, he, rfl, rfl⟩
  · refine ⟨s.bind a x v, ?_, changes_bind ha x v⟩
    rw [step, he]
    rfl
  · refine ⟨s.print (v.display ++ "\n"), ?_, changes_print s a _⟩
    rw [step, he]
    rfl

theorem step_of_error (h : n.step (s.table a) = .error f) : s.step a n = .error f := by
  cases n with
  | declare x type e =>
    rcases he : e.eval (s.table a) with g | v
    · rw [step_declare_of_error he] at h
      cases h
      rw [step, he]
      rfl
    · rw [step_declare_of_ok he] at h
      cases h
  | print e =>
    rcases he : e.eval (s.table a) with g | v
    · rw [step_print_of_error he] at h
      cases h
      rw [step, he]
      rfl
    · rw [step_print_of_ok he] at h
      cases h
  | _ =>
    cases h
    rfl

theorem changes_execute (ha : a < s.tables.size) (ns : List Node) :
    s.Changes a (Bagay.execute (s.table a) ns).bindings (Bagay.execute (s.table a) ns).output
        (s.execute a ns).store ∧
      (s.execute a ns).started = (Bagay.execute (s.table a) ns).started ∧
      (s.execute a ns).fault = (Bagay.execute (s.table a) ns).fault := by
  induction ns generalizing s with
  | nil => exact ⟨.refl s a, rfl, rfl⟩
  | cons n ns ih =>
    rcases hn : n.step (s.table a) with f | ⟨b, text⟩
    · rw [execute_of_error hn, execute, step_of_error hn]
      exact ⟨.refl s a, rfl, rfl⟩
    · obtain ⟨t, hstep, ht⟩ := exists_step_of_ok ha hn
      obtain ⟨hchanges, hstarted, hfault⟩ := ih (s := t) (by rw [ht.size]; exact ha)
      rw [ht.table_self] at hchanges hstarted hfault
      rw [execute_of_ok hn, execute, hstep]
      exact ⟨ht.trans hchanges, congrArg (n :: ·) hstarted, hfault⟩

end Store

/-! ### Commands at a handle -/

namespace Handle

variable {h : Handle} {s : Store}

/-- What a machine did in a store, against the report of a machine that has its bindings to
itself. -/
structure Agrees (h : Handle) (s : Store) (w : Store.Work) (r : Report) : Prop where
  file : r.machine.file = h.file
  changes : s.Changes h.table r.machine.bindings r.output w.store
  result : w.result = r.result
  records : w.records = r.records

theorem Agrees.report {w : Store.Work} {r : Report} (hw : h.Agrees s w r) :
    ⟨h.machine w.store, w.result, w.store.printedSince s, w.records⟩ = r := by
  obtain ⟨⟨file, b⟩, result, output, records⟩ := r
  obtain ⟨hfile, hchanges, hresult, hrecords⟩ := hw
  simp only at hfile hresult hrecords
  rw [machine, hchanges.printedSince, hchanges.table_self, hfile, hresult, hrecords]

theorem Agrees.noted {w : Store.Work} {r : Report} (hw : h.Agrees s w r) (noted : List Record) :
    h.Agrees s { w with records := noted ++ w.records }
      { r with records := noted ++ r.records } :=
  ⟨hw.file, hw.changes, hw.result, congrArg (noted ++ ·) hw.records⟩

theorem agrees_untouched (h : Handle) (s : Store) (result : Except Failure (Option Value))
    (records : List Record) :
    h.Agrees s ⟨s, result, records⟩ ⟨h.machine s, result, "", records⟩ :=
  ⟨rfl, .refl s h.table, rfl, rfl⟩

theorem agrees_exec (ha : h.table < s.tables.size) (ns : List Node) :
    h.Agrees s (h.exec s ns) ((h.machine s).exec ns) := by
  obtain ⟨hchanges, hstarted, hfault⟩ := Store.changes_execute ha ns
  exact ⟨rfl, hchanges, congrArg Failure.ofFault? hfault,
    congrArg (List.map Record.executing) hstarted⟩

theorem agrees_run (ha : h.table < s.tables.size) (source : String) :
    h.Agrees s (h.run s source) ((h.machine s).run false source) := by
  rcases hparsed : (parsed source).result with e | ss
  · rw [Machine.run_of_error hparsed]
    simp only [run, hparsed]
    exact agrees_untouched h s _ _
  · rw [Machine.run_of_ok hparsed]
    simp only [run, hparsed, Machine.listing, Bool.false_eq_true, if_false, List.append_nil]
    exact (agrees_exec ha _).noted _

theorem agrees_evalSource (h : Handle) (s : Store) (source : String) :
    h.Agrees s (h.evalSource s source) ((h.machine s).evalSource source) := by
  unfold evalSource Machine.evalSource
  rcases hparsed : (Parser.expr Numeral.read? (Token.lex source)).result with e | e
  all_goals simp only [hparsed]
  · exact agrees_untouched h s _ _
  · exact (agrees_untouched h s _ _).noted _

/-- In a store, a command to a machine in use does what it does at a machine that has its bindings
to itself. -/
theorem agrees_perform (ha : h.table < s.tables.size) {c : Command} (hc : ∀ file, c ≠ .new file) :
    h.Agrees s (h.perform s c) ((h.machine s).perform c) := by
  cases c with
  | new file => exact absurd rfl (hc file)
  | run source => exact agrees_run ha source
  | exec ns => exact agrees_exec ha ns
  | eval n => exact agrees_untouched h s _ _
  | evalSource source => exact agrees_evalSource h s source

end Handle

/-! ### Names and their tables -/

namespace Session

/-- Each name has a table in the store, and different names have different ones. -/
structure Separate (s : Session) : Prop where
  allocated : ∀ {id : String} {h : Handle}, s.handles[id]? = some h →
    h.table < s.store.tables.size
  apart : ∀ {id id' : String} {h h' : Handle}, s.handles[id]? = some h →
    s.handles[id']? = some h' → h.table = h'.table → id = id'

theorem handles_empty (id : String) : (∅ : Session).handles[id]? = none :=
  Std.TreeMap.getElem?_emptyc

theorem separate_empty : Separate ∅ where
  allocated hid := absurd hid (by rw [handles_empty]; exact nofun)
  apart hid := absurd hid (by rw [handles_empty]; exact nofun)

variable {s : Session} {id id' : String} {h : Handle}

theorem machine_of_some (hid : s.handles[id]? = some h) : s.machine id = h.machine s.store := by
  rw [machine, hid]

theorem machine_of_none (hid : s.handles[id]? = none) :
    s.machine id = .fresh (some defaultFile) := by
  rw [machine, hid]

/-- The session that has the handle of a command, and this handle: it stands for the machine `m`,
its table is the one of the name or new, and no other name and no older table is touched. -/
structure IsTarget (s : Session) (id : String) (m : Machine) (t : Session × Handle) : Prop where
  separate : t.1.Separate
  handle_self : t.1.handles[id]? = some t.2
  handle_of_ne : ∀ id', id' ≠ id → t.1.handles[id']? = s.handles[id']?
  table_of_lt : ∀ a, a < s.store.tables.size → t.1.store.table a = s.store.table a
  held_or_new : s.handles[id]? = some t.2 ∨ s.store.tables.size ≤ t.2.table
  machine_eq : t.2.machine t.1.store = m

theorem getElem?_handles_new (s : Session) (id id' : String) (file : Option String) :
    (s.new id file).1.handles[id']? =
      if id = id' then some ⟨file, s.store.tables.size⟩ else s.handles[id']? := by
  simp only [new, Store.alloc, Std.TreeMap.getElem?_insert, Std.LawfulEqCmp.compare_eq_iff_eq]

/-- The table of a new machine lies behind all tables that the names have. -/
theorem Separate.new (hs : s.Separate) (id : String) (file : Option String) :
    (s.new id file).1.Separate := by
  have hsize : (s.new id file).1.store.tables.size = s.store.tables.size + 1 := Array.size_push _
  constructor
  · intro id₁ h₁ hid₁
    rw [getElem?_handles_new] at hid₁
    split at hid₁
    · cases hid₁
      exact hsize ▸ Nat.lt_succ_self _
    · exact hsize ▸ Nat.lt_succ_of_lt (hs.allocated hid₁)
  · intro id₁ id₂ h₁ h₂ hid₁ hid₂ heq
    rw [getElem?_handles_new] at hid₁ hid₂
    split at hid₁ <;> split at hid₂
    · simp_all
    · cases hid₁
      exact absurd heq.symm (Nat.ne_of_lt (hs.allocated hid₂))
    · cases hid₂
      exact absurd heq (Nat.ne_of_lt (hs.allocated hid₁))
    · exact hs.apart hid₁ hid₂ heq

theorem Separate.isTarget_new (hs : s.Separate) (id : String) (file : Option String) :
    s.IsTarget id (.fresh file) (s.new id file) where
  separate := hs.new id file
  handle_self := by
    rw [getElem?_handles_new, if_pos rfl]
    rfl
  handle_of_ne id' hid' := by
    rw [getElem?_handles_new, if_neg hid'.symm]
  table_of_lt a ha := Store.table_alloc_of_lt ha
  held_or_new := .inr (Nat.le_refl _)
  machine_eq := by
    simp only [Session.new, Handle.machine, Machine.fresh, Store.table_alloc_self]

theorem Separate.isTarget_of_ne_new (hs : s.Separate) (id : String) {c : Command}
    (hc : ∀ file, c ≠ .new file) : s.IsTarget id (s.machine id) (s.target id c) := by
  rcases hid : s.handles[id]? with _ | h
  · have htarget : s.target id c = s.new id (some defaultFile) := by
      cases c with
      | new file => exact absurd rfl (hc file)
      | _ => simp only [target, hid]
    rw [htarget, machine_of_none hid]
    exact hs.isTarget_new id _
  · have htarget : s.target id c = (s, h) := by
      cases c with
      | new file => exact absurd rfl (hc file)
      | _ => simp only [target, hid]
    rw [htarget, machine_of_some hid]
    exact ⟨hs, hid, fun _ _ => rfl, fun _ _ => rfl, .inl hid, rfl⟩

/-- A command goes to the handle of its name, and does there what it does at the machine alone. -/
theorem Separate.agrees_target (hs : s.Separate) (id : String) (c : Command) :
    ∃ t m, s.target id c = t ∧ s.IsTarget id m t ∧
      t.2.Agrees t.1.store (t.2.perform t.1.store c) ((s.machine id).perform c) := by
  by_cases hc : ∃ file, c = .new file
  · obtain ⟨file, rfl⟩ := hc
    have ht := hs.isTarget_new id file
    refine ⟨_, _, rfl, ht, ?_⟩
    have hagrees := Handle.agrees_untouched (s.new id file).2 (s.new id file).1.store (.ok none) []
    rw [ht.machine_eq] at hagrees
    exact hagrees
  · have ht := hs.isTarget_of_ne_new id (not_exists.mp hc)
    refine ⟨_, _, rfl, ht, ?_⟩
    have hagrees := Handle.agrees_perform (ht.separate.allocated ht.handle_self) (not_exists.mp hc)
    rw [ht.machine_eq] at hagrees
    exact hagrees

/-! ### A command, seen from the names -/

/-- A name reports what its machine reports alone. -/
theorem Separate.report_step (hs : s.Separate) (id : String) (c : Command) :
    (s.step id c).2 = (s.machine id).perform c := by
  obtain ⟨t, m, ht, -, hagrees⟩ := hs.agrees_target id c
  rw [step, ht]
  exact hagrees.report

theorem Separate.step (hs : s.Separate) (id : String) (c : Command) :
    (s.step id c).1.Separate := by
  obtain ⟨t, m, ht, htarget, hagrees⟩ := hs.agrees_target id c
  rw [Session.step, ht]
  refine ⟨fun hid => ?_, htarget.separate.apart⟩
  exact hagrees.changes.size ▸ htarget.separate.allocated hid

theorem Separate.machine_step_self (hs : s.Separate) (id : String) (c : Command) :
    (s.step id c).1.machine id = ((s.machine id).perform c).machine := by
  obtain ⟨t, m, rfl, htarget, hagrees⟩ := hs.agrees_target id c
  have hid : (s.step id c).1.handles[id]? = some (s.target id c).2 := htarget.handle_self
  rw [machine_of_some hid]
  exact congrArg Report.machine hagrees.report

/-- **Footprint**: a command under a name writes to no table that was there before, except to the
one that this name has. -/
theorem Separate.table_step (hs : s.Separate) (id : String) (c : Command) {a : Nat}
    (ha : a < s.store.tables.size) (hne : ∀ h, s.handles[id]? = some h → h.table ≠ a) :
    (s.step id c).1.store.table a = s.store.table a := by
  obtain ⟨t, m, rfl, htarget, hagrees⟩ := hs.agrees_target id c
  have hapart : a ≠ (s.target id c).2.table := by
    rcases htarget.held_or_new with hid | hnew
    · exact (hne _ hid).symm
    · exact Nat.ne_of_lt (Nat.lt_of_lt_of_le ha hnew)
  exact (hagrees.changes.table_of_ne a hapart).trans (htarget.table_of_lt a ha)

theorem Separate.machine_step_of_ne (hs : s.Separate) (hne : id ≠ id') (c : Command) :
    (s.step id' c).1.machine id = s.machine id := by
  obtain ⟨t, m, rfl, htarget, -⟩ := hs.agrees_target id' c
  have hhandle : (s.step id' c).1.handles[id]? = s.handles[id]? := htarget.handle_of_ne id hne
  rcases hid : s.handles[id]? with _ | h
  · rw [machine_of_none hid, machine_of_none (hhandle.trans hid)]
  · have htable := hs.table_step id' c (hs.allocated hid)
      fun h' hid' heq => hne (hs.apart hid hid' heq.symm)
    rw [machine_of_some hid, machine_of_some (hhandle.trans hid), Handle.machine, Handle.machine,
      htable]

end Session
end Bagay
