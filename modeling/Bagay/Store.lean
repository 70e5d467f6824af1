import Bagay.Machine

/-!
# Stores

Machines that live side by side work on one store. It holds their tables of bindings, each at an
address, and the texts that any of them printed. A machine in a store is a `Handle`: the file that
its messages name and the address of its table. It reads names at this address, it binds names at
this address, and it prints to the stream that all of them share. Which tables stay as they are is
not settled by the types: it depends on the addresses that the handles have.

* `Store.alloc`: a new table.
* `Store.step`, `Store.execute`: statements with their names in the table at an address.
* `Handle.run`, `Handle.exec`, `Handle.eval`, `Handle.evalSource`: what a machine does, in a store.
* `Handle.machine`: what there is to see of a machine in a store.
-/

namespace Bagay

/-- Tables of bindings by address, and the texts printed so far. -/
structure Store where
  tables : Array Bindings
  printed : List String

namespace Store

/-- The store without tables. -/
def empty : Store := ⟨#[], []⟩

/-- The table at an address. -/
def table (s : Store) (a : Nat) : Bindings :=
  s.tables[a]?.getD ∅

/-- A new table without bindings, and its address. -/
def alloc (s : Store) : Store × Nat :=
  ({ s with tables := s.tables.push ∅ }, s.tables.size)

/-- Binds a name in the table at an address. -/
def bind (s : Store) (a : Nat) (name : String) (v : Value) : Store :=
  { s with tables := s.tables.modify a (·.insert name v) }

/-- Prints a text. -/
def print (s : Store) (text : String) : Store :=
  { s with printed := s.printed ++ [text] }

/-- The text printed since an earlier state of the store. -/
def printedSince (s earlier : Store) : String :=
  String.join (s.printed.drop earlier.printed.length)

/-- The store after a statement, whose names are those of the table at an address. -/
def step (s : Store) (a : Nat) : Node → Except Fault Store
  | .declare x _ e => do
    let v ← e.eval (s.table a)
    return s.bind a x v
  | .print e => do
    let v ← e.eval (s.table a)
    return s.print (v.display ++ "\n")
  | n => .error (.notStmt n)

/-- What the execution of a list of statements does in a store. -/
structure Execution where
  /-- The store at the end. -/
  store : Store
  /-- The statements started, the failing one included. -/
  started : List Node
  /-- The fault that ended the execution, if there was one. -/
  fault : Option Fault

/-- Executes statements in order, up to the first fault. -/
def execute (s : Store) (a : Nat) : List Node → Execution
  | [] => ⟨s, [], none⟩
  | n :: ns =>
    match s.step a n with
    | .error f => ⟨s, [n], some f⟩
    | .ok s' =>
      let r := s'.execute a ns
      { r with started := n :: r.started }

/-- What a machine did in a store. -/
structure Work where
  /-- The store afterwards. -/
  store : Store
  /-- The failure, or the value of an evaluated expression. -/
  result : Except Failure (Option Value)
  /-- The records made. -/
  records : List Record

end Store

/-- A machine in a store: a file name for messages, and the address of the bindings. -/
structure Handle where
  file : Option String
  table : Nat

namespace Handle

/-- What there is to see of a machine in a store. -/
def machine (h : Handle) (s : Store) : Machine :=
  ⟨h.file, s.table h.table⟩

/-- Executes nodes as statements. -/
def exec (h : Handle) (s : Store) (ns : List Node) : Store.Work :=
  let r := s.execute h.table ns
  ⟨r.store, Failure.ofFault? r.fault, r.started.map .executing⟩

/-- Evaluates a node. -/
def eval (h : Handle) (s : Store) (n : Node) : Store.Work :=
  ⟨s, Failure.ofEval (n.eval (s.table h.table)), []⟩

/-- Runs a source. -/
def run (h : Handle) (s : Store) (source : String) : Store.Work :=
  let noted := lexRecords source ++ (parsed source).records
  match (parsed source).result with
  | .error e => ⟨s, .error (.parse e), noted⟩
  | .ok ss =>
    let r := h.exec s (ss.map Stmt.toNode)
    { r with records := noted ++ r.records }

/-- Evaluates the expression that a source starts with. -/
def evalSource (h : Handle) (s : Store) (source : String) : Store.Work :=
  let o := Parser.expr Numeral.read? (Token.lex source)
  let noted := lexRecords source ++ o.records
  match o.result with
  | .error e => ⟨s, .error (.parse e), noted⟩
  | .ok e =>
    let r := h.eval s e.toNode
    { r with records := noted ++ r.records }

end Handle

end Bagay
