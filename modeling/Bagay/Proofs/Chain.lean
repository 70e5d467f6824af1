import Bagay.Decimal.Numeral
import Bagay.Node.Eval
import Bagay.Proofs.Cursor.Suffix
import Bagay.Proofs.Parser.Acceptance
import Mathlib.Tactic.Common

/-!
# Chains of operands

A chain is an operand, then operators with an operand each, all of them single tokens: the shape of
every expression that the parser knows. Its tokens are taken as a whole, and the tree that they make
is nested to the left. The evaluation of this tree, a recursion down to its first operand, is a loop
along the chain: it keeps one value, takes the value of the next operand and then applies the
operator in front of it. The first fault in this order ends the loop.

* `Operand`: a number that can be read, a string or a name, with its token and its value.
* `Chain.tokens`, `Chain.expr`, `Chain.value`: the tokens of a chain, its tree and the loop.
* `Chain.spelled_expr`: the tokens spell the tree.
* `Chain.eval_expr`: the tree has the value of the loop, by induction on the links.
* `Chain.value_eq_error_iff`: which fault ends the loop.
* `chain_is_evaluated_from_the_left`: the result.
-/

namespace Bagay

/-- An operand as it stands among tokens. -/
inductive Operand (read : String → Option Float)
  /-- A number, with a text that can be read. -/
  | number (numeral : String) (x : Float) (h : read numeral = some x)
  /-- A string. -/
  | text (s : String)
  /-- A name. -/
  | name (n : String)

/-- An operand, and operators with an operand each. -/
structure Chain (read : String → Option Float) where
  first : Operand read
  links : List (Op × Operand read)

variable {read : String → Option Float}

namespace Operand

/-- The token of an operand. -/
def token : Operand read → Token
  | number numeral _ _ => ⟨.number, numeral⟩
  | text s => ⟨.string, s⟩
  | name n => ⟨.identifier, n⟩

/-- The expression that an operand is. -/
def expr : Operand read → Expr
  | number _ x _ => .number x
  | text s => .text s
  | name n => .name n

/-- The value of an operand: a name is looked up. -/
def value (b : Bindings) : Operand read → Except Fault Value
  | number _ x _ => .ok (.number x)
  | text s => .ok (.text s)
  | name n =>
    match b[n]? with
    | some v => .ok v
    | none => .error (.undefined n)

theorem isOperand_token (t : Operand read) : t.token.IsOperand read t.expr := by
  cases t with
  | number numeral x h => exact .number h
  | text s => exact .text s
  | name n => exact .name n

theorem eval_expr (b : Bindings) (t : Operand read) : t.expr.toNode.eval b = t.value b := by
  cases t <;> rfl

end Operand

namespace Chain

/-- The tokens of a link. -/
def linkTokens (p : Op × Operand read) : List Token := [p.1.token, p.2.token]

/-- The tree of what stands on the left and a link. -/
def linkExpr (left : Expr) (p : Op × Operand read) : Expr := .binary p.1 left p.2.expr

/-- One turn of the loop: the value of the operand, then the operator between the value so far and
this one. -/
def linkValue (b : Bindings) (acc : Value) (p : Op × Operand read) : Except Fault Value := do
  let v ← p.2.value b
  Node.apply p.1 (.value acc) (.value v)

/-- The tokens of a chain. -/
def tokens (c : Chain read) : List Token := c.first.token :: c.links.flatMap linkTokens

/-- The tree of a chain, nested to the left. -/
def expr (c : Chain read) : Expr := c.links.foldl linkExpr c.first.expr

/-- The loop along a chain: the value of its first operand, then one link after the other. -/
def value (b : Bindings) (c : Chain read) : Except Fault Value := do
  let v ← c.first.value b
  c.links.foldlM (linkValue b) v

theorem length_flatMap_linkTokens (links : List (Op × Operand read)) :
    (links.flatMap linkTokens).length = 2 * links.length := by
  induction links with
  | nil => rfl
  | cons p links ih =>
    rw [List.flatMap_cons, List.length_append, ih, List.length_cons]
    have hp : (linkTokens p).length = 2 := rfl
    omega

theorem length_tokens (c : Chain read) : c.tokens.length = 2 * c.links.length + 1 := by
  unfold tokens
  rw [List.length_cons, length_flatMap_linkTokens]

/-! ### The tokens spell the tree -/

theorem spelled_foldl {e : Expr} {ts : List Token} (h : e.Spelled read ts)
    (links : List (Op × Operand read)) :
    (links.foldl linkExpr e).Spelled read (ts ++ links.flatMap linkTokens) := by
  induction links generalizing e ts with
  | nil => simpa using h
  | cons p links ih =>
    have hp : (linkExpr e p).Spelled read (ts ++ linkTokens p) := .binary p.1 h p.2.isOperand_token
    rw [List.foldl_cons, List.flatMap_cons, ← List.append_assoc]
    exact ih hp

theorem spelled_expr (c : Chain read) : c.expr.Spelled read c.tokens :=
  spelled_foldl (.operand c.first.isOperand_token) c.links

/-! ### The tree has the value of the loop -/

theorem eval_linkExpr (b : Bindings) (e : Expr) (p : Op × Operand read) :
    (linkExpr e p).toNode.eval b = e.toNode.eval b >>= fun v => linkValue b v p := by
  unfold linkExpr linkValue
  rw [Expr.toNode, Node.eval, p.2.eval_expr]
  simp only [Node.applySymbol, Op.ofSymbol?_symbol]

/-- A recursion to the left is a loop to the right. -/
theorem eval_foldl (b : Bindings) (e : Expr) (links : List (Op × Operand read)) :
    (links.foldl linkExpr e).toNode.eval b =
      e.toNode.eval b >>= fun v => links.foldlM (linkValue b) v := by
  induction links generalizing e with
  | nil => simp
  | cons p links ih =>
    rw [List.foldl_cons, ih, eval_linkExpr, bind_assoc]
    simp only [List.foldlM_cons]

theorem eval_expr (b : Bindings) (c : Chain read) : c.expr.toNode.eval b = c.value b := by
  unfold expr value
  rw [eval_foldl, c.first.eval_expr]

/-! ### The fault that ends the loop -/

/-- A loop that fails does so in one turn, after turns that do not. -/
theorem foldlM_eq_error_iff {b : Bindings} {acc : Value} {links : List (Op × Operand read)}
    {f : Fault} : links.foldlM (linkValue b) acc = .error f ↔
      ∃ before p after v, links = before ++ p :: after ∧
        before.foldlM (linkValue b) acc = .ok v ∧ linkValue b v p = .error f := by
  constructor
  · intro h
    induction links generalizing acc with
    | nil => cases h
    | cons p links ih =>
      rw [List.foldlM_cons] at h
      rcases hp : linkValue b acc p with g | v
      · rw [hp] at h
        cases h
        exact ⟨[], p, links, acc, rfl, rfl, hp⟩
      · rw [hp] at h
        obtain ⟨before, q, after, w, rfl, hbefore, hq⟩ := ih h
        refine ⟨p :: before, q, after, w, rfl, ?_, hq⟩
        rw [List.foldlM_cons, hp]
        exact hbefore
  · rintro ⟨before, p, after, v, rfl, hbefore, hp⟩
    have hcons : (p :: after).foldlM (linkValue b) v = .error f := by
      rw [List.foldlM_cons, hp]
      rfl
    rw [List.foldlM_append, hbefore]
    exact hcons

/-- **The first fault**: the loop fails at its first operand; or, after links that have a value, at
the operand of the next one; or, if this operand has a value too, at the operator in front of it. -/
theorem value_eq_error_iff {b : Bindings} {c : Chain read} {f : Fault} :
    c.value b = .error f ↔ c.first.value b = .error f ∨
      ∃ before op t after acc, c.links = before ++ (op, t) :: after ∧
        (⟨c.first, before⟩ : Chain read).value b = .ok acc ∧
        (t.value b = .error f ∨
          ∃ v, t.value b = .ok v ∧ Node.apply op (.value acc) (.value v) = .error f) := by
  unfold value
  rw [Except.bind_eq_error_iff]
  constructor
  · rintro (h | ⟨v, hv, h⟩)
    · exact .inl h
    · obtain ⟨before, ⟨op, t⟩, after, acc, hlinks, hbefore, hp⟩ := foldlM_eq_error_iff.mp h
      exact .inr ⟨before, op, t, after, acc, hlinks, Except.bind_eq_ok_iff.mpr ⟨v, hv, hbefore⟩,
        Except.bind_eq_error_iff.mp hp⟩
  · rintro (h | ⟨before, op, t, after, acc, hlinks, hvalue, hp⟩)
    · exact .inl h
    · obtain ⟨v, hv, hbefore⟩ := Except.bind_eq_ok_iff.mp hvalue
      exact .inr ⟨v, hv, foldlM_eq_error_iff.mpr ⟨before, (op, t), after, acc, hlinks, hbefore,
        Except.bind_eq_error_iff.mpr hp⟩⟩

end Chain

/-- **Chains**: at the tokens of a chain, in front of a token that is no operator or of nothing, an
expression is parsed that takes these tokens and no more. Its tree is nested to the left, its value
is that of the loop along the chain, and so its fault is the first one in the order of the chain. -/
theorem chain_is_evaluated_from_the_left (c : Chain read) (k : Cursor) (rest : List Token)
    (hk : k.rest = c.tokens ++ rest) (hrest : ∀ op : Op, rest.head? ≠ some op.token)
    (b : Bindings) :
    let a := k.perform read .expr
    (a.result = .ok (.expr c.expr) ∧ a.missing = 0 ∧
      a.cursor.position = k.position + (2 * c.links.length + 1)) ∧
    c.expr.toNode.eval b = c.value b ∧
    ∀ f, c.expr.toNode.eval b = .error f ↔ c.first.value b = .error f ∨
      ∃ before op t after acc, c.links = before ++ (op, t) :: after ∧
        (⟨c.first, before⟩ : Chain read).value b = .ok acc ∧
        (t.value b = .error f ∨
          ∃ v, t.value b = .ok v ∧ Node.apply op (.value acc) (.value v) = .error f) := by
  intro a
  have hends : EndsExpr rest := by
    intro t ht
    rcases hop : Op.ofToken? t with _ | op
    · rfl
    · rw [Op.ofToken?_eq_some_iff.mp hop] at ht
      exact absurd ht (hrest op)
  have hexpr : Parser.expr read k.rest = ⟨.ok c.expr, rest, 0⟩ :=
    Parser.expr_eq_ok_iff.mpr ⟨c.tokens, hk, c.spelled_expr, hends, rfl⟩
  refine ⟨⟨?_, ?_, ?_⟩, c.eval_expr b, fun f => ?_⟩
  · simp only [a, Cursor.perform_expr, Cursor.run, hexpr]
    rfl
  · simp only [a, Cursor.perform_expr, Cursor.run, hexpr]
  · have hposition : a.cursor.position = k.position + c.tokens.length := by
      simp only [a, Cursor.perform_expr]
      exact Cursor.position_run hk hexpr .expr
    rw [hposition, c.length_tokens]
  · rw [c.eval_expr]
    exact Chain.value_eq_error_iff

/-- `1 - 2 + 3`. -/
def threeNumbers : Chain Numeral.read? where
  first := .number "1" 1 (by decide +kernel)
  links := [(.sub, .number "2" 2 (by decide +kernel)), (.add, .number "3" 3 (by decide +kernel))]

/-- `"a" - x + y`. -/
def textMinusName : Chain Numeral.read? where
  first := .text "a"
  links := [(.sub, .name "x"), (.add, .name "y")]

/-- The difference comes before the sum; an unbound name comes before the mismatch at the operator
in front of it, and this mismatch before the next unbound name. -/
theorem threeNumbers_and_textMinusName_from_the_left :
    (((Cursor.start (threeNumbers.tokens ++ [Token.semicolon])).perform Numeral.read?
      .expr).cursor.position = 5 ∧ threeNumbers.expr.toNode.eval ∅ = .ok (.number 2)) ∧
    textMinusName.expr.toNode.eval ∅ = .error (.undefined "x") ∧
    textMinusName.expr.toNode.eval ((∅ : Bindings).insert "x" (.text "b")) =
      .error (.mismatch "-" (.value (.text "a")) (.value (.text "b"))) := by
  have hsemi : ∀ op : Op, [Token.semicolon].head? ≠ some op.token := by
    intro op
    cases op <;> decide
  obtain ⟨⟨-, -, hposition⟩, hvalue, -⟩ := chain_is_evaluated_from_the_left threeNumbers
    (Cursor.start (threeNumbers.tokens ++ [Token.semicolon])) [Token.semicolon]
    (Cursor.rest_start _) hsemi ∅
  have hfaults := fun b => (chain_is_evaluated_from_the_left textMinusName
    (Cursor.start (textMinusName.tokens ++ [])) [] (Cursor.rest_start _) (by simp) b).2.2
  refine ⟨⟨hposition, ?_⟩, (hfaults ∅ _).mpr (.inr ?_), (hfaults _ _).mpr (.inr ?_)⟩
  · rw [hvalue]
    decide +kernel
  · exact ⟨[], .sub, .name "x", _, .text "a", rfl, rfl, .inl rfl⟩
  · exact ⟨[], .sub, .name "x", _, .text "a", rfl, rfl, .inr ⟨.text "b", rfl, rfl⟩⟩

end Bagay
