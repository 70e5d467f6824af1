import Bagay.Proofs.Session.Separation
import Mathlib.Tactic.Common

/-!
# Interleaved commands

The commands of a session go to machines by name, in any order. What comes back from a machine
depends on the commands that went to it and on their order. What other machines did in between does
not matter, whether it failed or not: a machine in a session reports what it would report alone.

* `named`: what stands under a name, out of commands or out of reports.
* `Machine.reports`, `Machine.after`: commands at a single machine.
* `Session.Separate.named_steps`, `Session.Separate.machine_after`: a session, seen from one name,
  is one machine. Both go by induction on the commands: each of them leaves the tables apart.
* `machines_do_not_interfere`: the result.
-/

namespace Bagay

/-! ### What stands under a name -/

section Named

variable {α : Type} {id id' : String}

/-- What stands under a name, in order. -/
def named (id : String) (ps : List (String × α)) : List α :=
  (ps.filter (·.1 = id)).map Prod.snd

theorem named_cons_self (id : String) (a : α) (ps : List (String × α)) :
    named id ((id, a) :: ps) = a :: named id ps := by
  simp [named]

theorem named_cons_of_ne (h : id' ≠ id) (a : α) (ps : List (String × α)) :
    named id ((id', a) :: ps) = named id ps := by
  simp [named, h]

theorem named_of_forall {ps : List (String × α)} (h : ∀ p ∈ ps, p.1 = id) :
    named id ps = ps.map Prod.snd := by
  unfold named
  rw [List.filter_eq_self.mpr fun p hp => decide_eq_true (h p hp)]

theorem forall_mem_filter (id : String) (ps : List (String × α)) :
    ∀ p ∈ ps.filter (·.1 = id), p.1 = id :=
  fun _ hp => of_decide_eq_true (List.mem_filter.mp hp).2

end Named

/-! ### A single machine -/

namespace Machine

/-- The reports of commands at a machine, each on what the one before left. -/
def reports (m : Machine) : List Command → List Report
  | [] => []
  | c :: cs => m.perform c :: (m.perform c).machine.reports cs

/-- The machine after commands. -/
def after (m : Machine) : List Command → Machine
  | [] => m
  | c :: cs => (m.perform c).machine.after cs

end Machine

/-! ### A session, seen from one name -/

namespace Session

/-- The session after commands. -/
def after (s : Session) : List (String × Command) → Session
  | [] => s
  | (id, c) :: cs => (s.step id c).1.after cs

theorem map_fst_steps (s : Session) (cs : List (String × Command)) :
    (s.steps cs).map Prod.fst = cs.map Prod.fst := by
  induction cs generalizing s with
  | nil => rfl
  | cons p cs ih => rw [steps, List.map_cons, List.map_cons, ih]

variable {s : Session} (hs : s.Separate) (cs : List (String × Command))

include hs

theorem Separate.after : (s.after cs).Separate := by
  induction cs generalizing s with
  | nil => exact hs
  | cons p cs ih => exact ih (hs.step p.1 p.2)

/-- **Reports**: under a name stand the reports of its machine alone. -/
theorem Separate.named_steps (id : String) :
    named id (s.steps cs) = (s.machine id).reports (named id cs) := by
  induction cs generalizing s with
  | nil => rfl
  | cons p cs ih =>
    obtain ⟨id', c⟩ := p
    have hrest := ih (hs.step id' c)
    by_cases h : id = id'
    · subst h
      rw [steps, named_cons_self, named_cons_self, hrest, hs.machine_step_self, hs.report_step]
      rfl
    · rw [steps, named_cons_of_ne (Ne.symm h), named_cons_of_ne (Ne.symm h), hrest,
        hs.machine_step_of_ne h]

/-- **Machines**: at the end, a name has the machine that its commands alone lead to. -/
theorem Separate.machine_after (id : String) :
    (s.after cs).machine id = (s.machine id).after (named id cs) := by
  induction cs generalizing s with
  | nil => rfl
  | cons p cs ih =>
    obtain ⟨id', c⟩ := p
    have hrest := ih (hs.step id' c)
    by_cases h : id = id'
    · subst h
      rw [Session.after, named_cons_self, hrest, hs.machine_step_self]
      rfl
    · rw [Session.after, named_cons_of_ne (Ne.symm h), hrest, hs.machine_step_of_ne h]

theorem Separate.map_snd_steps_filter (id : String) :
    (s.steps (cs.filter (·.1 = id))).map Prod.snd = (s.machine id).reports (named id cs) := by
  have hcs := forall_mem_filter id cs
  have hsteps : ∀ p ∈ s.steps (cs.filter (·.1 = id)), p.1 = id := by
    intro p hp
    have hmem : p.1 ∈ (s.steps (cs.filter (·.1 = id))).map Prod.fst := List.mem_map_of_mem hp
    rw [map_fst_steps] at hmem
    obtain ⟨q, hq, hqp⟩ := List.mem_map.mp hmem
    rw [← hqp]
    exact hcs q hq
  rw [← named_of_forall hsteps, hs.named_steps, named_of_forall hcs]
  rfl

end Session

/-- **Independence**: in a session that any commands led to, different names have different tables,
and a command under a name writes to no other name's table. So whatever commands follow, the reports
under a name are those of its machine alone, which are also those of the session that takes only the
commands of this name; and the machine at the end is the same. In two orders of commands that keep
the order of the commands under each name, each name has the same reports and the same machine at
the end. -/
theorem machines_do_not_interfere (before cs : List (String × Command)) :
    let s := Session.after ∅ before
    (s.Separate ∧ ∀ id c a, a < s.store.tables.size →
      (∀ h, s.handles[id]? = some h → h.table ≠ a) →
        (s.step id c).1.store.table a = s.store.table a) ∧
    (∀ id, named id (s.steps cs) = (s.machine id).reports (named id cs) ∧
      named id (s.steps cs) = (s.steps (cs.filter (·.1 = id))).map Prod.snd ∧
      (s.after cs).machine id = (s.after (cs.filter (·.1 = id))).machine id) ∧
    ∀ ds, (∀ id, cs.filter (·.1 = id) = ds.filter (·.1 = id)) → ∀ id,
      named id (s.steps cs) = named id (s.steps ds) ∧
        (s.after cs).machine id = (s.after ds).machine id := by
  intro s
  have hs : s.Separate := Session.separate_empty.after before
  refine ⟨⟨hs, fun id c a => hs.table_step id c⟩, fun id => ⟨hs.named_steps cs id, ?_, ?_⟩,
    fun ds h id => ?_⟩
  · rw [hs.named_steps, hs.map_snd_steps_filter]
  · rw [hs.machine_after, hs.machine_after, named_of_forall (forall_mem_filter id cs)]
    rfl
  · have hnamed : named id cs = named id ds := congrArg (List.map Prod.snd) (h id)
    rw [hs.named_steps, hs.named_steps, hs.machine_after, hs.machine_after, hnamed]
    exact ⟨rfl, rfl⟩

/-- A machine `a` that binds a name and then starts anew, and a machine `b` that fails twice. -/
def firstOrder : List (String × Command) :=
  [("a", .new none), ("b", .new (some "b.hry")), ("a", .run "bagay x -> teksto = \"1\""),
    ("b", .run "ipakita x"), ("a", .eval (.name "x")), ("b", .exec [.print (.text "2"), .absent]),
    ("a", .new none), ("a", .eval (.name "x"))]

/-- The same commands, first all those of `b`. -/
def secondOrder : List (String × Command) :=
  [("b", .new (some "b.hry")), ("b", .run "ipakita x"),
    ("b", .exec [.print (.text "2"), .absent]), ("a", .new none),
    ("a", .run "bagay x -> teksto = \"1\""), ("a", .eval (.name "x")), ("a", .new none),
    ("a", .eval (.name "x"))]

theorem firstOrder_reports_as_secondOrder :
    (∀ id, firstOrder.filter (·.1 = id) = secondOrder.filter (·.1 = id)) ∧
    (∀ id, named id (Session.steps ∅ firstOrder) = named id (Session.steps ∅ secondOrder)) ∧
    (named "b" (Session.steps ∅ firstOrder)).map (fun r => (r.result, r.output)) =
      [(.ok none, ""), (.error (.fault (.undefined "x")), ""),
        (.error (.fault (.notStmt .absent)), "2\n")] ∧
    (Session.after ∅ firstOrder).handles["b"]?.map Handle.table = some 1 ∧
    ∀ c, ((Session.after ∅ firstOrder).step "b" c).1.store.table 2 =
      (Session.after ∅ firstOrder).store.table 2 := by
  have hsame : ∀ id, firstOrder.filter (·.1 = id) = secondOrder.filter (·.1 = id) := by
    intro id
    by_cases ha : "a" = id
    · subst ha
      rfl
    · by_cases hb : "b" = id
      · subst hb
        rfl
      · simp [firstOrder, secondOrder, ha, hb]
  have htable : (Session.after ∅ firstOrder).handles["b"]?.map Handle.table = some 1 := by
    decide +kernel
  obtain ⟨-, halone, horder⟩ := machines_do_not_interfere [] firstOrder
  obtain ⟨⟨-, hfootprint⟩, -, -⟩ := machines_do_not_interfere firstOrder []
  refine ⟨hsame, fun id => (horder secondOrder hsame id).1, ?_, htable, fun c => ?_⟩
  · have hb : named "b" (Session.steps ∅ firstOrder) = _ := (halone "b").1
    rw [hb]
    decide +kernel
  · refine hfootprint "b" c 2 (by decide +kernel) fun h hh heq => ?_
    rw [hh, Option.map_some, heq] at htable
    cases htable

end Bagay
