import Bagay.Parser.Grammar

/-!
# Cursors

A cursor is a list of tokens with a position in it. It is a tape: the current token is the one at
the position, and to go on is to move the position by one. The parsing routines run at a cursor one
after the other: each starts where the one before stopped, also if that one failed.

* `Cursor.current`, `Cursor.next`: the token at the position, and the position behind it.
* `Cursor.Request.routine`: the routine of a request, a query about the current token or a part of
  the grammar.
* `Cursor.perform`: the answer to a request.
-/

namespace Bagay

/-- A position in a list of tokens; the length of the list is the position after the last one. -/
structure Cursor where
  tokens : List Token
  position : Nat
  position_le : position ≤ tokens.length

namespace Cursor

/-- The cursor at the first token. -/
def start (ts : List Token) : Cursor :=
  ⟨ts, 0, Nat.zero_le _⟩

/-- The token at the position. -/
def current (c : Cursor) : Option Token :=
  c.tokens[c.position]?

/-- The cursor behind the current token; after the last token it stays. -/
def next (c : Cursor) : Cursor :=
  if h : c.position < c.tokens.length then ⟨c.tokens, c.position + 1, h⟩ else c

/-- The tokens from the position on. -/
def rest (c : Cursor) : List Token :=
  c.tokens.drop c.position

instance : Tape Cursor where
  current := current
  next := next
  left c := c.tokens.length - c.position
  current_eq_none_iff {c} := by
    rw [current, List.getElem?_eq_none_iff]
    omega
  left_next c := by
    unfold next
    split
    · exact Nat.sub_add_eq ..
    · omega

/-- What can be asked at a cursor. -/
inductive Request
  /-- The current token. -/
  | current
  /-- Whether all tokens are taken. -/
  | atEnd
  /-- How a message names the current token. -/
  | describe
  /-- Whether the current token fits a pattern. -/
  | fits (p : Pattern)
  /-- The token that fits a pattern, taken. -/
  | take (p : Pattern)
  /-- The error with a given message at the current token. -/
  | error (message : String)
  /-- An operand. -/
  | operand
  /-- An expression. -/
  | expr
  /-- A statement. -/
  | statement
  /-- A declaration. -/
  | declaration
  /-- A print statement. -/
  | print
  /-- All statements up to the last token. -/
  | program

/-- What comes back from a cursor. -/
inductive Reply
  | token (t : Option Token)
  | flag (b : Bool)
  | text (s : String)
  | error (e : ParseError)
  | expr (e : Expr)
  | statement (s : Stmt)
  | program (ss : List Stmt)

/-- The routine that answers a request, on any tape. -/
def Request.routine {σ : Type} [Tape σ] (read : String → Option Float) :
    Request → Routine σ Reply
  | .current => Parser.peek .token
  | .atEnd => Parser.peek fun t => .flag t.isNone
  | .describe => Parser.peek fun t => .text (ParseError.describe t)
  | .fits p => Parser.peek fun t => .flag (t.any p.accepts)
  | .error message => Parser.peek fun t => .error (.refused message t)
  | .take p => do return .token (some (← Parser.take p))
  | .operand => do return .expr (← Parser.operand read)
  | .expr => do return .expr (← Parser.expr read)
  | .statement => do return .statement (← Parser.statement read)
  | .declaration => do return .statement (← Parser.declaration read)
  | .print => do return .statement (← Parser.print read)
  | .program => do return .program (← Parser.program read)

/-- The result of a request, with the cursor after it and the number of statements that were found
without a semicolon. -/
structure Answer where
  cursor : Cursor
  result : Except ParseError Reply
  missing : Nat

/-- The answer to a request. -/
def perform (read : String → Option Float) (c : Cursor) (q : Request) : Answer :=
  let o := q.routine read c
  ⟨o.rest, o.result, o.missing⟩

end Cursor

/-- What holds of the parts of statements, of queries and of programs holds of the routine of every
request, a request for a single statement apart. -/
theorem Parser.Compositional.routine {σ σ' : Type} [Tape σ] [Tape σ']
    {R : ∀ ⦃α : Type⦄, Routine σ α → Routine σ' α → Prop} {read : String → Option Float}
    (h : Compositional read R)
    (hpeek : ∀ {α : Type} (g : Option Token → α), R (Parser.peek g) (Parser.peek g))
    (hprogram : R (Parser.program read) (Parser.program read)) {q : Cursor.Request}
    (hstatement : q = .statement → R (Parser.statement read) (Parser.statement read)) :
    R (q.routine read) (q.routine read) := by
  have hreturn : ∀ {α β : Type} {p : Routine σ α} {p' : Routine σ' α} (reply : α → β),
      R p p' → R (do return reply (← p)) (do return reply (← p')) :=
    fun reply hp => h.bind hp fun a => h.pure (reply a)
  cases q with
  | take p => exact hreturn _ (h.accept _ _)
  | operand => exact hreturn _ h.operand
  | expr => exact hreturn _ h.expr
  | statement => exact hreturn _ (hstatement rfl)
  | declaration => exact hreturn _ h.declaration
  | print => exact hreturn _ h.print
  | program => exact hreturn _ hprogram
  | _ => exact hpeek _

end Bagay
