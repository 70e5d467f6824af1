import Bagay.Decimal.Numeral
import Bagay.Node.Eval
import Bagay.Parser.Grammar
import Bagay.Record
import Bagay.Token.Lexeme

/-!
# Machines

A machine keeps bindings from one program to the next, and knows the file that its messages name.
It runs sources, executes nodes and evaluates single expressions; a report tells what came of it.
A source that does not parse is not executed at all.

* `Machine.run`: a source through all stages: tokens, statements, execution.
* `Machine.exec`: a list of nodes as statements.
* `Machine.eval`, `Machine.evalSource`: a node, or the expression that a source starts with.
-/

namespace Bagay

/-- The file that messages name if none is given. -/
def defaultFile : String := "<input>"

/-- A file name for messages, and the bindings so far. -/
structure Machine where
  file : Option String
  bindings : Bindings

/-- What the parser makes of a source. -/
abbrev parsed (source : String) : Outcome (List Token) (List Stmt) :=
  Parser.program Numeral.read? (Token.lex source)

/-- Why a machine fails: while parsing, or while evaluating. -/
inductive Failure
  | parse (e : ParseError)
  | fault (f : Fault)
  deriving DecidableEq, Repr

/-- The message of a failure in a file. -/
def Failure.message (file : Option String) : Failure → String
  | parse e => e.message file
  | fault f => f.message file

/-- The result of an execution, by its fault. -/
def Failure.ofFault? : Option Fault → Except Failure (Option Value)
  | some f => .error (.fault f)
  | none => .ok none

/-- The result of an evaluation. -/
def Failure.ofEval : Except Fault Value → Except Failure (Option Value)
  | .error f => .error (.fault f)
  | .ok v => .ok (some v)

/-- What a machine did. -/
structure Report where
  /-- The machine afterwards. -/
  machine : Machine
  /-- The failure, or the value of an evaluated expression. -/
  result : Except Failure (Option Value)
  /-- The text printed. -/
  output : String
  /-- The records made. -/
  records : List Record

namespace Machine

/-- A machine without bindings. -/
def fresh (file : Option String) : Machine :=
  ⟨file, ∅⟩

/-- Executes nodes as statements. -/
def exec (m : Machine) (ns : List Node) : Report :=
  let r := execute m.bindings ns
  { machine := { m with bindings := r.bindings }
    result := Failure.ofFault? r.fault
    output := r.output
    records := r.started.map .executing }

/-- Evaluates a node. -/
def eval (m : Machine) (n : Node) : Report :=
  { machine := m
    result := Failure.ofEval (n.eval m.bindings)
    output := ""
    records := [] }

/-- The records of tokens and statements, which a run makes only if it is asked to. -/
def listing (verbose : Bool) (ts : List Token) (ss : List Stmt) : List Record :=
  if verbose then [.tokens ts, .program ss] else []

/-- Runs a source: cuts it into tokens, parses all of them and executes the statements. -/
def run (verbose : Bool) (m : Machine) (source : String) : Report :=
  let noted := lexRecords source ++ (parsed source).records
  match (parsed source).result with
  | .error e => ⟨m, .error (.parse e), "", noted⟩
  | .ok ss =>
    let r := m.exec (ss.map Stmt.toNode)
    { r with records := noted ++ listing verbose (Token.lex source) ss ++ r.records }

theorem result_exec_of_none {m : Machine} {ns : List Node}
    (h : (execute m.bindings ns).fault = none) : (m.exec ns).result = .ok none := by
  simp only [exec, h, Failure.ofFault?]

theorem result_exec_of_some {m : Machine} {ns : List Node} {f : Fault}
    (h : (execute m.bindings ns).fault = some f) : (m.exec ns).result = .error (.fault f) := by
  simp only [exec, h, Failure.ofFault?]

theorem fault_of_result_exec {m : Machine} {ns : List Node} {f : Fault}
    (h : (m.exec ns).result = .error (.fault f)) : (execute m.bindings ns).fault = some f := by
  rcases hf : (execute m.bindings ns).fault with _ | g
  · rw [result_exec_of_none hf] at h
    cases h
  · rw [result_exec_of_some hf] at h
    cases h
    rfl

/-- A source that does not parse leaves the machine as it is. -/
theorem run_of_error {source : String} {e : ParseError}
    (h : (parsed source).result = .error e) (verbose : Bool) (m : Machine) :
    m.run verbose source =
      ⟨m, .error (.parse e), "", lexRecords source ++ (parsed source).records⟩ := by
  simp only [run, h]

/-- A source that parses is executed. -/
theorem run_of_ok {source : String} {ss : List Stmt}
    (h : (parsed source).result = .ok ss) (verbose : Bool) (m : Machine) :
    m.run verbose source = { m.exec (ss.map Stmt.toNode) with
      records := lexRecords source ++ (parsed source).records ++
        listing verbose (Token.lex source) ss ++ (m.exec (ss.map Stmt.toNode)).records } := by
  simp only [run, h]

/-- Evaluates the expression that a source starts with. -/
def evalSource (m : Machine) (source : String) : Report :=
  let o := Parser.expr Numeral.read? (Token.lex source)
  let noted := lexRecords source ++ o.records
  match o.result with
  | .error e => ⟨m, .error (.parse e), "", noted⟩
  | .ok e =>
    let r := m.eval e.toNode
    { r with records := noted ++ r.records }

end Machine

/-- Whether a setting asks a run for the records of its tokens and statements: any text does,
except the empty one. -/
def isVerbose (setting : Option String) : Bool :=
  setting.any (· ≠ "")

/-- Runs a source on a machine of its own. -/
def runSource (setting file : Option String) (source : String) : Report :=
  (Machine.fresh file).run (isVerbose setting) source

end Bagay
