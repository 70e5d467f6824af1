import Bagay.Store

/-!
# Sessions

A session holds machines by name, all of them in one store. A command goes to the machine of a name.
To start anew is to get another handle, with a table that is new in the store.

* `Session.new`, `Session.target`: the handle that a command goes to.
* `Session.step`: a command at the machine of a name.
* `Machine.perform`: the same command at a machine that has its bindings to itself.
-/

namespace Bagay

/-- What a session can ask of a machine. -/
inductive Command
  /-- Start anew without bindings. -/
  | new (file : Option String)
  /-- Run a source. -/
  | run (source : String)
  /-- Execute nodes as statements. -/
  | exec (ns : List Node)
  /-- Evaluate a node. -/
  | eval (n : Node)
  /-- Evaluate the expression that a source starts with. -/
  | evalSource (source : String)

/-- A command at a machine of its own. -/
def Machine.perform (m : Machine) : Command → Report
  | .new file => ⟨fresh file, .ok none, "", []⟩
  | .run source => m.run false source
  | .exec ns => m.exec ns
  | .eval n => m.eval n
  | .evalSource source => m.evalSource source

/-- A command at a machine in a store. Starting anew is over once there is a new handle. -/
def Handle.perform (h : Handle) (s : Store) : Command → Store.Work
  | .new _ => ⟨s, .ok none, []⟩
  | .run source => h.run s source
  | .exec ns => h.exec s ns
  | .eval n => h.eval s n
  | .evalSource source => h.evalSource s source

/-- A store, and the machines in it by name. -/
structure Session where
  store : Store
  handles : Std.TreeMap String Handle

namespace Session

instance : EmptyCollection Session := ⟨⟨.empty, ∅⟩⟩

/-- The machine of a name; a name not used yet has a machine without bindings. -/
def machine (s : Session) (id : String) : Machine :=
  match s.handles[id]? with
  | some h => h.machine s.store
  | none => .fresh (some defaultFile)

/-- A new machine under a name, with a new table. -/
def new (s : Session) (id : String) (file : Option String) : Session × Handle :=
  let h : Handle := ⟨file, s.store.alloc.2⟩
  (⟨s.store.alloc.1, s.handles.insert id h⟩, h)

/-- The handle that a command goes to: a new one, or the one in use. -/
def target (s : Session) (id : String) : Command → Session × Handle
  | .new file => s.new id file
  | _ =>
    match s.handles[id]? with
    | some h => (s, h)
    | none => s.new id (some defaultFile)

/-- A command at the machine of a name. -/
def step (s : Session) (id : String) (c : Command) : Session × Report :=
  let s' := (s.target id c).1
  let h := (s.target id c).2
  let w := h.perform s'.store c
  ({ s' with store := w.store },
    ⟨h.machine w.store, w.result, w.store.printedSince s'.store, w.records⟩)

/-- Commands in order, with the report of each. -/
def steps (s : Session) : List (String × Command) → List (String × Report)
  | [] => []
  | (id, c) :: cs => (id, (s.step id c).2) :: (s.step id c).1.steps cs

end Session

end Bagay
