import Bagay.Parser
import Bagay.Program

/-!
# The grammar

* A program is a sequence of statements.
* A statement is `bagay` name `->` datatype `=` expression, or `ipakita` expression, each with an
  optional `;` at its end.
* An expression is a sequence of operands with `+` or `-` between them, grouped from the left.
* An operand is a number, a string or a name.

There is a routine for each of these. How the text of a number is read is a parameter of them.

* `advances_operand`, `advances_statement`: each of these takes a token when it succeeds; the loops
  of `operations` and `program` end because of it.
* `operations_induction`, `program_induction`: what holds along these loops.
* `Sequential`, `Compositional`: relations between routines that hold of the parts of a statement,
  and so hold of declarations and print statements.
-/

namespace Bagay

/-- The operator that a token is. -/
def Op.ofToken? (t : Token) : Option Op :=
  if t.kind = .operator then ofSymbol? t.text else none

namespace Parser

variable {σ : Type} [Tape σ] (read : String → Option Float)

/-! ### Expressions -/

/-- What a token is as an operand, if it is one: an expression, or a number that cannot be read. -/
def operand? (t : Token) : Option (Except ParseError Expr) :=
  match t.kind with
  | .number =>
    match read t.text with
    | some x => some (.ok (.number x))
    | none => some (.error (.badNumber t.text))
  | .string => some (.ok (.text t.text))
  | .identifier => some (.ok (.name t.text))
  | _ => none

/-- Takes an operand. A number is taken even if its text cannot be read. -/
def operand : Routine σ Expr :=
  single (operand? read) (fun found => .error (.unexpected found)) 0

theorem advances_operand : Advances (operand read : Routine σ Expr) :=
  advances_single fun _ _ h => by cases h

/-- The operator that the current token is. -/
def operator? (s : σ) : Option Op :=
  (Tape.current s).bind Op.ofToken?

theorem operator?_congr {σ' : Type} [Tape σ'] {s : σ} {s' : σ'}
    (h : Tape.current s = Tape.current s') : operator? s = operator? s' := by
  rw [operator?, operator?, h]

theorem left_lt_of_operation {s rest : σ} {right : Expr} {n : Nat}
    (h : operand read (Tape.next s) = ⟨.ok right, rest, n⟩) : Tape.left rest < Tape.left s := by
  have hlt := (advances_operand read).left_lt h
  rw [Tape.left_next] at hlt
  omega

/-- Takes operators with their right operands, and groups them from the left. -/
def operations (left : Expr) : Routine σ Expr
  | s =>
    match operator? s with
    | none => ⟨.ok left, s, 0⟩
    | some op =>
      match _h : operand read (Tape.next s) with
      | ⟨.error e, rest, n⟩ => ⟨.error e, rest, n⟩
      | ⟨.ok right, rest, n⟩ =>
        let o := operations (.binary op left right) rest
        ⟨o.result, o.rest, n + o.missing⟩
termination_by s => Tape.left s
decreasing_by exact left_lt_of_operation read _h

theorem operations_of_none {s : σ} (h : operator? s = none) (left : Expr) :
    operations read left s = ⟨.ok left, s, 0⟩ := by
  rw [operations, h]

/-- One turn of the loop over the operators. -/
theorem operations_of_some {s : σ} {op : Op} (h : operator? s = some op) (left : Expr) :
    operations read left s =
      (operand read >>= fun right => operations read (.binary op left right)) (Tape.next s) := by
  rw [operations, h]
  simp only
  split
  · next ho => rw [bind_of_error ho]
  · next ho => rw [bind_of_ok ho]

/-- What holds where there is no operator, and passes from the turns that follow to the one before
them, holds along the loop. -/
theorem operations_induction {Q : Expr → σ → Prop}
    (none : ∀ left s, operator? s = none → Q left s)
    (some : ∀ left s op, operator? s = some op →
      (∀ right rest n, operand read (Tape.next s) = ⟨.ok right, rest, n⟩ →
        Q (.binary op left right) rest) → Q left s)
    (left : Expr) (s : σ) : Q left s := by
  induction hk : Tape.left s using Nat.strongRecOn generalizing left s with
  | ind k ih =>
    rcases hop : operator? s with _ | op
    · exact none left s hop
    · refine some left s op hop fun right rest n hr => ?_
      exact ih _ (hk ▸ left_lt_of_operation read hr) _ rest rfl

theorem forward_operations (left : Expr) : Forward (operations read left : Routine σ Expr) := by
  intro s
  induction left, s using @operations_induction σ _ read with
  | none left s hop =>
    rw [operations_of_none read hop]
    exact .refl s
  | some left s op hop ih =>
    rw [operations_of_some read hop]
    exact .next (reaches_bind ((advances_operand read).forward _) ih)

/-- Takes an expression. -/
def expr : Routine σ Expr := do
  let left ← operand read
  operations read left

/-! ### Statements -/

/-- Takes the end of a statement: its value and the optional semicolon. -/
def ending (k : Expr → Stmt) : Routine σ Stmt := do
  let value ← expr read
  semicolon
  return k value

/-- Takes a declaration behind the word that opens it. -/
def declarationTail : Routine σ Stmt := do
  let name ← take .variableName
  let _ ← take (.operator "->")
  let type ← datatype
  let _ ← take (.operator "=")
  ending read (.declare name.text type)

/-- Takes a declaration. -/
def declaration : Routine σ Stmt := do
  let _ ← take (.word Token.declareWord)
  declarationTail read

/-- Takes a print statement. -/
def print : Routine σ Stmt := do
  let _ ← take (.word Token.printWord)
  ending read .print

/-- Takes the statement that starts with a given token. -/
def statementFrom : Option Token → Routine σ Stmt
  | none => fail fun _ => .noStatement
  | some t =>
    if (Pattern.word Token.declareWord).accepts t then declaration read
    else if (Pattern.word Token.printWord).accepts t then print read
    else fail .unexpected

/-- Takes a statement; the current token tells which one it is. -/
def statement : Routine σ Stmt := fun s =>
  statementFrom read (Tape.current s) s

/-! ### Relations that pass from parts to the whole -/

section Relations

variable {σ' : Type} [Tape σ'] {T R : ∀ ⦃α : Type⦄, Routine σ α → Routine σ' α → Prop}

/-- The relation `R` holds of the ends of statements, and passes from them to what starts with
tokens, whose routines are related by `T`. The routines may be for two kinds of tapes; a property of
routines is a relation that looks at one of them only. -/
structure Sequential (T R : ∀ ⦃α : Type⦄, Routine σ α → Routine σ' α → Prop) : Prop where
  bind : ∀ {α β : Type} {p : Routine σ α} {p' : Routine σ' α} {f : α → Routine σ β}
    {f' : α → Routine σ' β}, T p p' → (∀ a, R (f a) (f' a)) → R (p >>= f) (p' >>= f')
  variableName : T (take .variableName) (take .variableName)
  operator : ∀ symbol, T (take (.operator symbol)) (take (.operator symbol))
  datatype : T datatype datatype
  ending : ∀ k, R (ending read k) (ending read k)

variable {read}

theorem Sequential.declarationTail (h : Sequential read T R) :
    R (declarationTail read) (declarationTail read) :=
  h.bind h.variableName fun _ =>
  h.bind (h.operator _) fun _ =>
  h.bind h.datatype fun _ =>
  h.bind (h.operator _) fun _ =>
  h.ending _

theorem Sequential.declaration (h : Sequential read T R)
    (hword : T (take (.word Token.declareWord)) (take (.word Token.declareWord))) :
    R (declaration read) (declaration read) :=
  h.bind hword fun _ => h.declarationTail

theorem Sequential.print (h : Sequential read T R)
    (hword : T (take (.word Token.printWord)) (take (.word Token.printWord))) :
    R (print read) (print read) :=
  h.bind hword fun _ => h.ending _

theorem statementFrom_some_of
    (hdeclaration : R (Parser.declaration read) (Parser.declaration read))
    (hprint : R (Parser.print read) (Parser.print read))
    (hunexpected : R (fail .unexpected : Routine σ Stmt) (fail .unexpected)) (t : Token) :
    R (statementFrom read (some t)) (statementFrom read (some t)) := by
  simp only [statementFrom]
  split
  · exact hdeclaration
  · split
    · exact hprint
    · exact hunexpected

theorem statementFrom_of (hdeclaration : R (Parser.declaration read) (Parser.declaration read))
    (hprint : R (Parser.print read) (Parser.print read))
    (hfail : ∀ e, R (fail e : Routine σ Stmt) (fail e)) (found : Option Token) :
    R (statementFrom read found) (statementFrom read found) :=
  match found with
  | none => hfail _
  | some t => statementFrom_some_of hdeclaration hprint (hfail _) t

variable (read) in
/-- The relation `R` holds of all parts of a statement, and passes to sequences. -/
structure Compositional (R : ∀ ⦃α : Type⦄, Routine σ α → Routine σ' α → Prop) : Prop where
  bind : ∀ {α β : Type} {p : Routine σ α} {p' : Routine σ' α} {f : α → Routine σ β}
    {f' : α → Routine σ' β}, R p p' → (∀ a, R (f a) (f' a)) → R (p >>= f) (p' >>= f')
  pure : ∀ {α : Type} (a : α), R (pure a) (pure a)
  accept : ∀ {α : Type} (f : Token → Option α) (message : String),
    R (accept f message) (accept f message)
  semicolon : R semicolon semicolon
  operand : R (operand read) (operand read)
  operations : ∀ left, R (operations read left) (operations read left)

theorem Compositional.expr (h : Compositional read R) : R (expr read) (expr read) :=
  h.bind h.operand h.operations

theorem Compositional.sequential (h : Compositional read R) : Sequential read R R where
  bind := h.bind
  variableName := h.accept _ _
  operator _ := h.accept _ _
  datatype := h.accept _ _
  ending _ := h.bind h.expr fun _ => h.bind h.semicolon fun _ => h.pure _

theorem Compositional.declaration (h : Compositional read R) :
    R (Parser.declaration read) (Parser.declaration read) :=
  h.sequential.declaration (h.accept _ _)

theorem Compositional.print (h : Compositional read R) :
    R (Parser.print read) (Parser.print read) :=
  h.sequential.print (h.accept _ _)

theorem Compositional.statementFrom_some (h : Compositional read R)
    (hunexpected : R (fail .unexpected : Routine σ Stmt) (fail .unexpected)) (t : Token) :
    R (Parser.statementFrom read (some t)) (Parser.statementFrom read (some t)) :=
  statementFrom_some_of h.declaration h.print hunexpected t

theorem Compositional.statementFrom (h : Compositional read R)
    (hfail : ∀ e, R (fail e : Routine σ Stmt) (fail e)) (found : Option Token) :
    R (Parser.statementFrom read found) (Parser.statementFrom read found) :=
  statementFrom_of h.declaration h.print hfail found

end Relations

/-! ### Routines that go forward -/

theorem compositional_forward :
    Compositional read fun α (p _ : Routine σ α) => Forward p where
  bind := Forward.bind
  pure := forward_pure
  accept _ _ := forward_single _ _ _
  semicolon := forward_single _ _ _
  operand := forward_single _ _ _
  operations := forward_operations read

theorem advances_declaration : Advances (declaration read : Routine σ Stmt) :=
  (advances_accept _ _).bind fun _ => (compositional_forward read).sequential.declarationTail

theorem advances_print : Advances (print read : Routine σ Stmt) :=
  (advances_accept _ _).bind fun _ => (compositional_forward read).sequential.ending _

theorem advances_statementFrom (found : Option Token) :
    Advances (statementFrom read found : Routine σ Stmt) :=
  statementFrom_of (R := fun _ p (_ : Routine σ _) => Advances p) (advances_declaration read)
    (advances_print read) (fun _ => advances_single fun _ _ h => by cases h) found

theorem advances_statement : Advances (statement read : Routine σ Stmt) where
  forward s := (advances_statementFrom read _).forward s
  left_lt h := (advances_statementFrom read _).left_lt h

/-! ### Programs -/

/-- Takes statements up to the last token. -/
def program : Routine σ (List Stmt)
  | s =>
    match Tape.current s with
    | none => ⟨.ok [], s, 0⟩
    | some _ =>
      match _h : statement read s with
      | ⟨.error e, rest, n⟩ => ⟨.error e, rest, n⟩
      | ⟨.ok stmt, rest, n⟩ =>
        let o := program rest
        ⟨o.result.map (stmt :: ·), o.rest, n + o.missing⟩
termination_by s => Tape.left s
decreasing_by exact (advances_statement read).left_lt _h

theorem program_of_none {s : σ} (h : Tape.current s = none) :
    program read s = ⟨.ok [], s, 0⟩ := by
  rw [program, h]

/-- One turn of the loop over the statements. -/
theorem program_of_some {s : σ} {t : Token} (h : Tape.current s = some t) :
    program read s =
      (statement read >>= fun stmt => program read >>= fun ss => pure (stmt :: ss)) s := by
  rw [program, h]
  simp only
  split
  · next ho => rw [bind_of_error ho]
  · next stmt rest n ho =>
    rw [bind_of_ok ho]
    rcases hp : program read rest with ⟨e | ss, r, m⟩
    · rw [bind_of_error hp]; rfl
    · rw [bind_of_ok hp]; rfl

/-- What holds at the end, and passes from what follows a statement to where it starts, holds along
the loop. -/
theorem program_induction {Q : σ → Prop} (none : ∀ s, Tape.current s = none → Q s)
    (some : ∀ s t, Tape.current s = some t →
      (∀ stmt rest n, statement read s = ⟨.ok stmt, rest, n⟩ → Q rest) → Q s)
    (s : σ) : Q s := by
  induction hk : Tape.left s using Nat.strongRecOn generalizing s with
  | ind k ih =>
    rcases ht : Tape.current s with _ | t
    · exact none s ht
    · refine some s t ht fun stmt rest n hs => ?_
      exact ih _ (hk ▸ (advances_statement read).left_lt hs) rest rfl

theorem forward_program : Forward (program read : Routine σ (List Stmt)) := by
  intro s
  induction s using @program_induction σ _ read with
  | none s hs =>
    rw [program_of_none read hs]
    exact .refl s
  | some s t hs ih =>
    rw [program_of_some read hs]
    refine reaches_bind ((advances_statement read).forward s) fun stmt rest n ho => ?_
    exact reaches_bind (ih stmt rest n ho) fun _ _ _ _ => .refl _

end Parser

end Bagay
