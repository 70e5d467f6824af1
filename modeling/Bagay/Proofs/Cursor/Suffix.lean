import Bagay.Parser.Cursor

/-!
# A cursor and the tokens from it on

A routine at a cursor does what it does on the list of the tokens from the position on, and leaves
the cursor in front of what it leaves of the list. The tokens before the position play no part.

* `Cursor.run`: a routine on the tokens from the position on.
* `FollowsAt`: at a cursor, a routine does what another one does on these tokens;
  `FollowsAt.bind`: sequences. Each routine of the grammar at a cursor follows itself on lists.
* `perform_eq_run`: the answer to a request, from the tokens from the position on.
* `rest_run`, `position_run`: where the cursor stands after a routine was run; `exists_taken`: after
  a program.
-/

namespace Bagay

open Bagay.Parser

namespace Cursor

variable {α β : Type} {c : Cursor}

/-! ### The tokens from a cursor on -/

theorem rest_start (ts : List Token) : (start ts).rest = ts := List.drop_zero

theorem length_rest (c : Cursor) : c.rest.length = c.tokens.length - c.position := by
  simp [rest]

theorem current_rest (c : Cursor) : Tape.current c.rest = Tape.current c :=
  List.head?_drop

theorem rest_next (c : Cursor) : c.next.rest = c.rest.tail := by
  unfold next rest
  split
  · exact List.tail_drop.symm
  · next h => rw [List.drop_eq_nil_of_le (by omega), List.tail_nil]

/-- The cursor with the given number of tokens left. -/
def leaving (c : Cursor) (n : Nat) : Cursor :=
  ⟨c.tokens, c.tokens.length - n, Nat.sub_le ..⟩

theorem leaving_length_rest (c : Cursor) : c.leaving c.rest.length = c := by
  obtain ⟨ts, position, hle⟩ := c
  have hlen : ts.length - (ts.drop position).length = position := by
    rw [List.length_drop]
    omega
  simp only [leaving, rest, hlen]

theorem leaving_length_tail (c : Cursor) : c.leaving c.rest.tail.length = c.next := by
  have htokens : c.next.tokens = c.tokens := by
    unfold next
    split <;> rfl
  have h := c.next.leaving_length_rest
  rw [rest_next] at h
  rw [← h, leaving, leaving]
  simp only [htokens]

theorem rest_leaving {us : List Token} (h : us <:+ c.rest) : (c.leaving us.length).rest = us :=
  (List.suffix_iff_eq_drop.mp (h.trans (List.drop_suffix _ _))).symm

/-! ### Routines at a cursor -/

/-- The outcome at a cursor of what was done on the tokens from it on. -/
def lift (c : Cursor) (o : Outcome (List Token) α) : Outcome Cursor α :=
  ⟨o.result, c.leaving o.rest.length, o.missing⟩

/-- At the cursor `c`, the routine `w` does what `p` does on the tokens from `c` on. -/
structure FollowsAt (c : Cursor) (w : Routine Cursor α) (p : Parser α) : Prop where
  suffix : (p c.rest).rest <:+ c.rest
  eq_lift : w c = c.lift (p c.rest)

/-- At every cursor, the routine `w` does what `p` does on the tokens from there on. -/
def Follows (w : Routine Cursor α) (p : Parser α) : Prop :=
  ∀ c : Cursor, c.FollowsAt w p

variable {w : Routine Cursor α} {p : Parser α} {f : α → Routine Cursor β} {g : α → Parser β}
  {r : Except ParseError α} {n : Nat}

theorem followsAt_of_stay (hw : w c = ⟨r, c, n⟩) (hp : p c.rest = ⟨r, c.rest, n⟩) :
    c.FollowsAt w p := by
  refine ⟨hp ▸ List.suffix_rfl, ?_⟩
  rw [hw, hp, lift, leaving_length_rest]

theorem followsAt_of_next (hw : w c = ⟨r, Tape.next c, n⟩)
    (hp : p c.rest = ⟨r, Tape.next c.rest, n⟩) : c.FollowsAt w p := by
  refine ⟨hp ▸ List.tail_suffix _, ?_⟩
  rw [hw, hp]
  exact congrArg (Outcome.mk r · n) c.leaving_length_tail.symm

/-- A routine may take the current token and leave the others to a second routine. -/
theorem FollowsAt.next {w' : Routine Cursor α} {p' : Parser α}
    (h : (Tape.next c).FollowsAt w' p') (hw : w c = w' (Tape.next c))
    (hp : p c.rest = p' (Tape.next c.rest)) : c.FollowsAt w p := by
  have hrest : (Tape.next c).rest = Tape.next c.rest := rest_next c
  have htokens : (Tape.next c).tokens = c.tokens := by
    show c.next.tokens = c.tokens
    unfold Cursor.next
    split <;> rfl
  constructor
  · rw [hp, ← hrest]
    exact h.suffix.trans (hrest ▸ List.tail_suffix _)
  · rw [hw, h.eq_lift, hp, hrest]
    unfold lift leaving
    simp only [htokens]

theorem FollowsAt.congr {w' : Routine Cursor α} {p' : Parser α} (h : c.FollowsAt w' p')
    (hw : w c = w' c) (hp : p c.rest = p' c.rest) : c.FollowsAt w p :=
  ⟨hp ▸ h.suffix, by rw [hw, hp, h.eq_lift]⟩

theorem FollowsAt.bind (h : c.FollowsAt w p)
    (hf : ∀ a c' k, w c = ⟨.ok a, c', k⟩ → c'.FollowsAt (f a) (g a)) :
    c.FollowsAt (w >>= f) (p >>= g) := by
  obtain ⟨hsuffix, heq⟩ := h
  rcases ho : p c.rest with ⟨e | a, us, k⟩
  · rw [ho] at hsuffix heq
    constructor
    · rw [bind_of_error ho]
      exact hsuffix
    · rw [bind_of_error ho, bind_of_error heq]
      rfl
  · rw [ho] at hsuffix heq
    have hrest := rest_leaving hsuffix
    obtain ⟨hsuffix', heq'⟩ := hf a _ k heq
    rw [hrest] at hsuffix' heq'
    constructor
    · rw [bind_of_ok ho]
      exact hsuffix'.trans hsuffix
    · rw [bind_of_ok ho, bind_of_ok heq, heq']
      rfl

theorem follows_pure (a : α) : Follows (pure a) (pure a) :=
  fun _ => followsAt_of_stay rfl rfl

theorem follows_single (h : Token → Option (Except ParseError α))
    (other : Option Token → Except ParseError α) (n : Nat) :
    Follows (single h other n) (single h other n) := by
  intro c
  have hcurrent := c.current_rest
  rcases hr : (Tape.current c).bind h with _ | r
  · refine followsAt_of_stay (r := other (Tape.current c)) (n := n) ?_ ?_
    · rw [single, hr]
    · rw [single, hcurrent, hr]
  · refine followsAt_of_next (r := r) (n := 0) ?_ ?_
    · rw [single, hr]
    · rw [single, hcurrent, hr]

theorem follows_peek (g : Option Token → α) : Follows (peek g) (peek g) :=
  follows_single _ _ _

/-! ### The grammar -/

variable (read : String → Option Float)

theorem follows_operations (left : Expr) :
    Follows (operations read left) (operations read left) := by
  intro c
  induction left, c using @operations_induction Cursor _ read with
  | none left c hop =>
    have hop' := (operator?_congr c.current_rest).trans hop
    exact followsAt_of_stay (operations_of_none read hop left) (operations_of_none read hop' left)
  | some left c op hop ih =>
    have hop' := (operator?_congr c.current_rest).trans hop
    exact ((follows_single _ _ _ _).bind ih).next (operations_of_some read hop left)
      (operations_of_some read hop' left)

theorem compositional_follows :
    Compositional read fun α (w : Routine Cursor α) (p : Parser α) => Follows w p where
  bind hp hf c := (hp c).bind fun a c' _ _ => hf a c'
  pure := follows_pure
  accept _ _ := follows_single _ _ _
  semicolon := follows_single _ _ _
  operand := follows_single _ _ _
  operations := follows_operations read

theorem follows_statement : Follows (statement read) (statement read) := by
  intro c
  have hfrom := (compositional_follows read).statementFrom (fun _ => follows_single _ _ _)
    (Tape.current c)
  refine (hfrom c).congr rfl ?_
  rw [statement, current_rest]

theorem follows_program : Follows (program read) (program read) := by
  intro c
  induction c using @program_induction Cursor _ read with
  | none c hc =>
    have hc' := c.current_rest.trans hc
    exact followsAt_of_stay (program_of_none read hc) (program_of_none read hc')
  | some c t hc ih =>
    have hc' := c.current_rest.trans hc
    have hturn := (follows_statement read c).bind fun stmt c' k hs =>
      (ih stmt c' k hs).bind fun ss c'' _ _ => follows_pure (stmt :: ss) c''
    exact hturn.congr (program_of_some read hc) (program_of_some read hc')

/-! ### Requests -/

theorem follows_routine (q : Request) : Follows (q.routine read) (q.routine read) :=
  (compositional_follows read).routine follows_peek (follows_program read)
    fun _ => follows_statement read

/-- Runs a routine on the tokens from the position on. -/
def run (c : Cursor) (p : Parser α) (reply : α → Reply) : Answer :=
  let o := p c.rest
  ⟨c.leaving o.rest.length, o.result.map reply, o.missing⟩

theorem run_return (c : Cursor) (p : Parser α) (reply : α → Reply) :
    c.run (do return reply (← p)) id = c.run p reply := by
  unfold run
  rcases hp : p c.rest with ⟨e | a, rest, n⟩
  · rw [bind_of_error hp]
    rfl
  · rw [bind_of_ok hp]
    rfl

/-- **Requests**: the answer to a request is that of its routine on the tokens from the position
on. -/
theorem perform_eq_run (c : Cursor) (q : Request) :
    c.perform read q = c.run (q.routine read) id := by
  rw [perform, (follows_routine read q c).eq_lift]
  rcases ho : q.routine read c.rest with ⟨e | a, us, n⟩
  · simp only [run, lift, ho, Except.map]
  · simp only [run, lift, ho, Except.map, id]

theorem perform_eq_run_of_return {q : Request} {reply : α → Reply} (c : Cursor)
    (h : q.routine read = (do return reply (← p))) : c.perform read q = c.run p reply := by
  rw [perform_eq_run, h, run_return]

theorem perform_take (c : Cursor) (q : Pattern) :
    c.perform read (.take q) = c.run (Parser.take q) fun t => .token (some t) :=
  perform_eq_run_of_return read c rfl

theorem perform_operand (c : Cursor) : c.perform read .operand = c.run (operand read) .expr :=
  perform_eq_run_of_return read c rfl

theorem perform_expr (c : Cursor) : c.perform read .expr = c.run (expr read) .expr :=
  perform_eq_run_of_return read c rfl

theorem perform_statement (c : Cursor) :
    c.perform read .statement = c.run (statement read) .statement :=
  perform_eq_run_of_return read c rfl

theorem perform_program (c : Cursor) : c.perform read .program = c.run (program read) .program :=
  perform_eq_run_of_return read c rfl

/-! ### The cursor after a request -/

theorem rest_run (hp : Forward p) (c : Cursor) (reply : α → Reply) :
    (c.run p reply).cursor.rest = (p c.rest).rest :=
  rest_leaving (hp.suffix c.rest)

/-- After a routine was run, the cursor stands behind what was taken. -/
theorem position_run {taken rest : List Token} (hc : c.rest = taken ++ rest)
    (h : p c.rest = ⟨r, rest, n⟩) (reply : α → Reply) :
    (c.run p reply).cursor.position = c.position + taken.length := by
  have hlen := c.length_rest
  have hle := c.position_le
  rw [hc, List.length_append] at hlen
  simp only [run, h, leaving]
  omega

theorem position_run_start {taken rest : List Token} (h : p (taken ++ rest) = ⟨r, rest, n⟩)
    (reply : α → Reply) :
    ((start (taken ++ rest)).run p reply).cursor.position = taken.length := by
  have hrest := rest_start (taken ++ rest)
  rw [position_run hrest (hrest ▸ h) reply]
  exact Nat.zero_add _

theorem position_le_position_run (c : Cursor) (hp : Forward p) (reply : α → Reply) :
    c.position ≤ (c.run p reply).cursor.position := by
  have h := (hp.suffix c.rest).length_le
  have hc := c.position_le
  rw [length_rest] at h
  simp only [run, leaving]
  omega

variable {read}

theorem perform_start_program {ts taken rest : List Token} {r : Except ParseError (List Stmt)}
    (hts : ts = taken ++ rest) (h : program read ts = ⟨r, rest, n⟩) :
    ((start ts).perform read .program).result = r.map .program ∧
      ((start ts).perform read .program).cursor.position = taken.length := by
  subst hts
  rw [perform_program]
  refine ⟨?_, position_run_start h .program⟩
  simp only [run, rest_start, h]

theorem result_eq_error_iff {ts : List Token} {e : ParseError} :
    ((start ts).perform read .program).result = .error e ↔
      (program read ts).result = .error e := by
  rw [perform_program, run, rest_start]
  rcases (program read ts).result with e' | A <;> simp [Except.map]

variable (read) in
/-- The tokens in front of the cursor after a program are those that were taken. -/
theorem exists_taken (ts : List Token) : ∃ taken rest r n, ts = taken ++ rest ∧
    program read (taken ++ rest) = ⟨r, rest, n⟩ ∧
      ((start ts).perform read .program).result = r.map .program ∧
        ((start ts).perform read .program).cursor.position = taken.length := by
  obtain ⟨taken, htaken⟩ := (forward_program read).suffix ts
  rcases ho : program read ts with ⟨r, rest, n⟩
  rw [ho] at htaken
  exact ⟨taken, rest, r, n, htaken.symm, htaken ▸ ho, perform_start_program htaken.symm ho⟩

theorem exists_taken_of_error {ts : List Token} {e : ParseError}
    (h : (program read ts).result = .error e) : ∃ taken rest n, ts = taken ++ rest ∧
      program read (taken ++ rest) = ⟨.error e, rest, n⟩ ∧
        ((start ts).perform read .program).cursor.position = taken.length := by
  obtain ⟨taken, rest, r, n, rfl, ho, -, hposition⟩ := exists_taken read ts
  rw [ho] at h
  obtain rfl : r = .error e := h
  exact ⟨taken, rest, n, rfl, ho, hposition⟩

end Cursor

end Bagay
