import Bagay.Proofs.Cursor.Window
import Bagay.Proofs.Parser.Acceptance
import Bagay.Proofs.Parser.Failure

/-!
# Requests one after the other

Requests are made at a cursor one after the other, each where the one before left the cursor, also
if that one failed. The cursor stays within the tokens and never goes back. How far a request moves
it can be told from the answer: a query not at all, a token by one, an expression by its operands
and the operators between them, a statement by two tokens at least, and a program to the end.

* `Cursor.calls`: the requests with their answers.
* `Expr.Spelled.length_eq`, `Program.Spelled.two_mul_length_le`: how many tokens a spelling has.
* `Call.Lawful`: how far a request moves the cursor; `Cursor.lawful_perform`: a single request.
* `Cursor.of_mem_calls`: what one request keeps, all of them keep, by induction on the requests.
* `calls_move_forward`: the result.
-/

namespace Bagay

/-! ### The length of a spelling -/

/-- The number of operators in an expression. -/
def Expr.operators : Expr → Nat
  | binary _ left right => left.operators + right.operators + 1
  | _ => 0

variable {read : String → Option Float}

theorem Token.IsOperand.operators_eq {t : Token} {e : Expr} (h : t.IsOperand read e) :
    e.operators = 0 := by
  cases h <;> rfl

/-- An expression is spelled with an operand more than it has operators. -/
theorem Expr.Spelled.length_eq {e : Expr} {us : List Token} (h : e.Spelled read us) :
    us.length = 2 * e.operators + 1 := by
  induction h with
  | operand h =>
    rw [h.operators_eq]
    rfl
  | binary op hl hr ih =>
    have hr0 := hr.operators_eq
    rw [List.length_append, ih, Expr.operators, hr0]
    simp only [List.length_cons, List.length_nil]
    omega

theorem Stmt.Spelled.two_le_length {s : Stmt} {us : List Token} (h : s.Spelled read us) :
    2 ≤ us.length := by
  cases h with
  | declare name ht hv =>
    have hlen := hv.length_eq
    simp only [List.length_cons]
    omega
  | print hv =>
    have hlen := hv.length_eq
    simp only [List.length_cons]
    omega

theorem Program.Spelled.two_mul_length_le {A : List Stmt} {w : Nat} {us : List Token}
    (h : Program.Spelled read A w us) : 2 * A.length ≤ us.length := by
  induction h with
  | nil => exact Nat.le_refl 0
  | closed hs hss ih =>
    have hlen := hs.two_le_length
    simp only [List.length_append, List.length_cons]
    omega
  | bare hs hss ih =>
    have hlen := hs.two_le_length
    simp only [List.length_append, List.length_cons]
    omega

/-! ### A single request -/

namespace Cursor

/-- The requests about the current token, which take nothing. -/
def Request.isQuery : Request → Bool
  | .current | .atEnd | .describe | .fits _ | .error _ => true
  | _ => false

/-- A request with the cursor before it and the answer. -/
structure Call where
  cursor : Cursor
  request : Request
  answer : Answer

/-- How far a request on the tokens `ts` moves the cursor. -/
structure Call.Lawful (read : String → Option Float) (ts : List Token) (k : Call) : Prop where
  /-- The tokens stay. -/
  tokens_eq : k.cursor.tokens = ts ∧ k.answer.cursor.tokens = ts
  /-- The cursor stays within them. -/
  position_le : k.answer.cursor.position ≤ ts.length
  /-- It never goes back. -/
  le_position : k.cursor.position ≤ k.answer.cursor.position
  /-- A query does not move it. -/
  query : k.request.isQuery → k.answer.cursor = k.cursor
  /-- A token that is refused stays, a token that is taken is one token. -/
  take : ∀ p, k.request = .take p →
    (∀ e, k.answer.result = .error e → k.answer.cursor = k.cursor) ∧
    ∀ r, k.answer.result = .ok r → k.answer.cursor.position = k.cursor.position + 1
  /-- A token that is no operand stays, a number that cannot be read is taken. -/
  operand : k.request = .operand →
    (∀ e, k.answer.result = .error e → e.IsSyntax → k.answer.cursor = k.cursor) ∧
    ∀ text, ts[k.cursor.position]? = some ⟨.number, text⟩ → read text = none →
      k.answer.result = .error (.badNumber text) ∧
        k.answer.cursor.position = k.cursor.position + 1
  /-- An expression has two tokens for each operator, and one more. -/
  expr : k.request = .expr → ∀ r, k.answer.result = .ok r → ∃ e, r = .expr e ∧
    k.answer.cursor.position = k.cursor.position + (2 * e.operators + 1)
  /-- A statement has two tokens at least. -/
  statement : k.request = .statement → ∀ r, k.answer.result = .ok r → ∃ s, r = .statement s ∧
    k.cursor.position + 2 ≤ k.answer.cursor.position
  /-- A program ends with the tokens, and has two of them for each statement at least. -/
  program : k.request = .program → ∀ r, k.answer.result = .ok r → ∃ ss, r = .program ss ∧
    k.answer.cursor.position = ts.length ∧ k.cursor.position + 2 * ss.length ≤ ts.length

section Run

variable {α : Type} {c : Cursor} {p : Parser α} {reply : α → Reply}

theorem exists_of_run_eq_ok {r : Reply} (h : (c.run p reply).result = .ok r) :
    ∃ a rest n, p c.rest = ⟨.ok a, rest, n⟩ ∧ r = reply a := by
  rcases ho : p c.rest with ⟨e | a, rest, n⟩
  · simp only [run, ho] at h
    cases h
  · simp only [run, ho] at h
    cases h
    exact ⟨a, rest, n, rfl, rfl⟩

theorem exists_of_run_eq_error {e : ParseError} (h : (c.run p reply).result = .error e) :
    ∃ rest n, p c.rest = ⟨.error e, rest, n⟩ := by
  rcases ho : p c.rest with ⟨e' | a, rest, n⟩
  · simp only [run, ho] at h
    cases h
    exact ⟨rest, n, rfl⟩
  · simp only [run, ho] at h
    cases h

theorem cursor_run_of_rest {r : Except ParseError α} {n : Nat} (h : p c.rest = ⟨r, c.rest, n⟩) :
    (c.run p reply).cursor = c := by
  simp only [run, h, leaving_length_rest]

end Run

theorem cursor_perform_of_isQuery {q : Request} (h : q.isQuery) (c : Cursor) :
    (c.perform read q).cursor = c := by
  have hpeek : ∀ g : Option Token → Reply, (Parser.peek g c).rest = c := fun g => by
    rw [Parser.peek_eq]
  cases q with
  | current | atEnd | describe | fits _ | error _ => exact hpeek _
  | _ => cases h

theorem take_moves (read : String → Option Float) (c : Cursor) (p : Pattern) :
    (∀ e, (c.perform read (.take p)).result = .error e →
      (c.perform read (.take p)).cursor = c) ∧
    ∀ r, (c.perform read (.take p)).result = .ok r →
      (c.perform read (.take p)).cursor.position = c.position + 1 := by
  rw [perform_take]
  constructor
  · intro e he
    obtain ⟨rest, n, ho⟩ := exists_of_run_eq_error he
    obtain ⟨rfl, -⟩ := Parser.accept_eq_error ho
    exact cursor_run_of_rest ho
  · intro r hr
    obtain ⟨t, rest, n, ho, -⟩ := exists_of_run_eq_ok hr
    obtain ⟨hrest, -, -⟩ := Parser.take_eq_ok_iff.mp ho
    have htaken : c.rest = [t] ++ rest := hrest
    exact position_run htaken ho _

theorem operand_moves (read : String → Option Float) (c : Cursor) :
    (∀ e, (c.perform read .operand).result = .error e → e.IsSyntax →
      (c.perform read .operand).cursor = c) ∧
    ∀ text, c.tokens[c.position]? = some ⟨.number, text⟩ → read text = none →
      (c.perform read .operand).result = .error (.badNumber text) ∧
        (c.perform read .operand).cursor.position = c.position + 1 := by
  rw [perform_operand]
  constructor
  · intro e he hsyntax
    obtain ⟨rest, n, ho⟩ := exists_of_run_eq_error he
    rcases Parser.operand_eq_error ho with ⟨rfl, -⟩ | ⟨text, -, -, rfl⟩
    · exact cursor_run_of_rest ho
    · cases hsyntax
  · intro text htext hread
    rw [← List.head?_drop, List.head?_eq_some_iff] at htext
    obtain ⟨rest, hrest⟩ := htext
    have hrest : c.rest = ⟨.number, text⟩ :: rest := hrest
    have ho : Parser.operand read c.rest = ⟨.error (.badNumber text), rest, 0⟩ := by
      rw [hrest]
      exact Parser.single_cons_of_some (by simp [Parser.operand?, hread]) rest
    have htaken : c.rest = [⟨.number, text⟩] ++ rest := hrest
    refine ⟨?_, position_run htaken ho _⟩
    simp only [run, ho]
    rfl

theorem expr_moves {c : Cursor} {r : Reply} (h : (c.perform read .expr).result = .ok r) :
    ∃ e, r = .expr e ∧
      (c.perform read .expr).cursor.position = c.position + (2 * e.operators + 1) := by
  rw [perform_expr] at h ⊢
  obtain ⟨e, rest, n, ho, rfl⟩ := exists_of_run_eq_ok h
  obtain ⟨us, hrest, he, -, -⟩ := Parser.expr_eq_ok_iff.mp ho
  refine ⟨e, rfl, ?_⟩
  rw [← he.length_eq]
  exact position_run hrest ho _

theorem statement_moves {c : Cursor} {r : Reply} (h : (c.perform read .statement).result = .ok r) :
    ∃ s, r = .statement s ∧ c.position + 2 ≤ (c.perform read .statement).cursor.position := by
  rw [perform_statement] at h ⊢
  obtain ⟨s, rest, n, ho, rfl⟩ := exists_of_run_eq_ok h
  obtain ⟨us, hrest, hs⟩ := Parser.statement_sound ho
  have hlen : 2 * [s].length ≤ us.length := hs.two_mul_length_le
  have hpos : (c.run (Parser.statement read) .statement).cursor.position =
      c.position + us.length := position_run hrest ho _
  refine ⟨s, rfl, ?_⟩
  simp only [List.length_singleton] at hlen
  omega

theorem program_moves {c : Cursor} {r : Reply} (h : (c.perform read .program).result = .ok r) :
    ∃ ss, r = .program ss ∧ (c.perform read .program).cursor.position = c.tokens.length ∧
      c.position + 2 * ss.length ≤ c.tokens.length := by
  rw [perform_program] at h ⊢
  obtain ⟨ss, rest, n, ho, rfl⟩ := exists_of_run_eq_ok h
  obtain ⟨hss, rfl⟩ := Parser.program_sound ho
  have hlen : 2 * ss.length ≤ c.rest.length := hss.two_mul_length_le
  have hpos : (c.run (Parser.program read) .program).cursor.position =
      c.position + c.rest.length := position_run (List.append_nil _).symm ho _
  have hle := c.position_le
  rw [length_rest] at hlen hpos
  exact ⟨ss, rfl, by omega, by omega⟩

/-- **One request** moves the cursor as its answer tells. -/
theorem lawful_perform (read : String → Option Float) (c : Cursor) (q : Request) :
    (⟨c, q, c.perform read q⟩ : Call).Lawful read c.tokens := by
  have htokens : (c.perform read q).cursor.tokens = c.tokens := by
    rw [perform_eq_run]
    rfl
  have hforward : c.position ≤ (c.perform read q).cursor.position := by
    rw [perform_eq_run]
    exact c.position_le_position_run (singleLookahead_routine read q).forward id
  exact
    { tokens_eq := ⟨rfl, htokens⟩
      position_le := htokens ▸ (c.perform read q).cursor.position_le
      le_position := hforward
      query := fun hq => cursor_perform_of_isQuery hq c
      take := by rintro p rfl; exact take_moves read c p
      operand := by rintro rfl; exact operand_moves read c
      expr := by rintro rfl r hr; exact expr_moves hr
      statement := by rintro rfl r hr; exact statement_moves hr
      program := by rintro rfl r hr; exact program_moves hr }

/-! ### All requests -/

/-- Requests one after the other, each at the cursor that the one before left. -/
def calls (read : String → Option Float) (c : Cursor) : List Request → List Call
  | [] => []
  | q :: qs => ⟨c, q, c.perform read q⟩ :: calls read (c.perform read q).cursor qs

theorem map_request_calls (c : Cursor) (qs : List Request) :
    (c.calls read qs).map Call.request = qs := by
  induction qs generalizing c with
  | nil => rfl
  | cons q qs ih => rw [calls, List.map_cons, ih]

/-- Every request moves the cursor as it does alone, and finds it no further back than the first. -/
theorem of_mem_calls {c : Cursor} {qs : List Request} {k : Call} (h : k ∈ c.calls read qs) :
    k.Lawful read c.tokens ∧ c.position ≤ k.cursor.position := by
  induction qs generalizing c with
  | nil => cases h
  | cons q qs ih =>
    have hq := lawful_perform read c q
    rcases List.mem_cons.mp h with rfl | h
    · exact ⟨hq, Nat.le_refl _⟩
    · obtain ⟨hk, hle⟩ := ih h
      rw [hq.tokens_eq.2] at hk
      exact ⟨hk, Nat.le_trans hq.le_position hle⟩

theorem pairwise_calls (c : Cursor) (qs : List Request) :
    (c.calls read qs).Pairwise fun k l => k.answer.cursor.position ≤ l.cursor.position := by
  induction qs generalizing c with
  | nil => exact List.Pairwise.nil
  | cons q qs ih => exact List.Pairwise.cons (fun l hl => (of_mem_calls hl).2) (ih _)

end Cursor

/-- **Calls**: whatever is asked at a cursor, in whatever order, and whether it fails or not, every
request is answered, the cursor stays within the tokens and never goes back, and each request moves
it as far as its answer tells. -/
theorem calls_move_forward (read : String → Option Float) (ts : List Token)
    (qs : List Cursor.Request) :
    ((Cursor.start ts).calls read qs).map Cursor.Call.request = qs ∧
    (∀ k ∈ (Cursor.start ts).calls read qs, k.Lawful read ts) ∧
    ((Cursor.start ts).calls read qs).Pairwise fun k l =>
      k.answer.cursor.position ≤ l.cursor.position := by
  refine ⟨Cursor.map_request_calls _ qs, fun k hk => ?_, Cursor.pairwise_calls _ qs⟩
  exact (Cursor.of_mem_calls hk).1

/-- A number that cannot be read, then a sum. -/
def badNumberFirst : List Token :=
  [⟨.keyword, "ipakita"⟩, ⟨.number, "1e"⟩, ⟨.string, "a"⟩, ⟨.operator, "+"⟩, ⟨.string, "b"⟩]

/-- Requests of which the first, the third and the fourth fail. -/
def stubbornRequests : List Cursor.Request :=
  [.expr, .take (.word "ipakita"), .operand, .statement, .expr, .program]

theorem stubbornRequests_move_forward :
    ((Cursor.start badNumberFirst).calls Numeral.read? stubbornRequests).map
      (·.answer.cursor.position) = [0, 1, 2, 2, 5, 5] ∧
    ∃ k ∈ (Cursor.start badNumberFirst).calls Numeral.read? stubbornRequests,
      k.request = .operand ∧ k.answer.result = .error (.badNumber "1e") ∧
        k.answer.cursor.position = k.cursor.position + 1 := by
  obtain ⟨hrequests, hlawful, -⟩ :=
    calls_move_forward Numeral.read? badNumberFirst stubbornRequests
  have hlen : 2 < ((Cursor.start badNumberFirst).calls Numeral.read? stubbornRequests).length := by
    rw [← List.length_map Cursor.Call.request, hrequests]
    decide
  have hmem := List.getElem_mem hlen
  have hread : Numeral.read? "1e" = none := by decide
  have hk := (hlawful _ hmem).operand rfl
  obtain ⟨hresult, hposition⟩ := hk.2 "1e" rfl hread
  exact ⟨by decide +kernel, _, hmem, rfl, hresult, hposition⟩

end Bagay
