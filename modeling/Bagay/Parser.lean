import Bagay.ParseError

/-!
# Parsing routines

A parsing routine works on a tape. It sees the current token only, and it can go on to the next one.
Whether it succeeds or fails, it leaves the tape somewhere, and it counts the statements that it
found without a semicolon, which the language allows but notes. Routines are composed in sequence;
the first failure ends the sequence and keeps the tape and the count that were reached.

A list of tokens is a tape, whose first token is the current one. A `Parser` is a routine for lists.

* `single`: the routines that decide about a single token; `take`: one that is asked for by a
  `Pattern`.
* `Forward`: a routine never goes back; `Advances`: and it takes a token when it succeeds.
* `Forward.bind`, `Advances.bind`: both properties pass to a sequence.
-/

namespace Bagay

/-- Tokens that are seen one at a time. -/
class Tape (σ : Type) where
  /-- The current token, if there is one left. -/
  current : σ → Option Token
  /-- The tape without its current token. -/
  next : σ → σ
  /-- The number of tokens left. -/
  left : σ → Nat
  current_eq_none_iff : ∀ {s}, current s = none ↔ left s = 0
  left_next : ∀ s, left (next s) = left s - 1

instance : Tape (List Token) where
  current := List.head?
  next := List.tail
  left := List.length
  current_eq_none_iff := by simp
  left_next _ := List.length_tail

namespace Tape

variable {σ : Type} [Tape σ] {s t u : σ}

theorem left_next_lt {x : Token} (h : current s = some x) : left (next s) < left s := by
  have hleft : left s ≠ 0 := fun h0 => by simp [current_eq_none_iff.mpr h0] at h
  rw [left_next]
  omega

/-- The tape `t` is what is left of `s` behind some of its tokens. -/
inductive Reaches : σ → σ → Prop
  | refl (s : σ) : Reaches s s
  | next {s t : σ} (h : Reaches (next s) t) : Reaches s t

theorem Reaches.trans (h : Reaches s t) (h' : Reaches t u) : Reaches s u := by
  induction h with
  | refl s => exact h'
  | next _ ih => exact .next (ih h')

theorem reaches_next (s : σ) : Reaches s (Tape.next s) := .next (.refl _)

theorem Reaches.left_le (h : Reaches s t) : left t ≤ left s := by
  induction h with
  | refl s => exact Nat.le_refl _
  | @next s t _ ih =>
    rw [left_next] at ih
    omega

theorem Reaches.suffix {ts us : List Token} (h : Reaches ts us) : us <:+ ts := by
  induction h with
  | refl ts => exact List.suffix_rfl
  | @next ts us _ ih => exact ih.trans (List.tail_suffix ts)

end Tape

/-- What a routine does. -/
structure Outcome (σ α : Type) where
  /-- The result. -/
  result : Except ParseError α
  /-- What is left of the tape. -/
  rest : σ
  /-- The number of statements without a semicolon. -/
  missing : Nat

/-- Parsing routines for a kind of tape. -/
def Routine (σ α : Type) := σ → Outcome σ α

/-- Parsing routines for lists of tokens. -/
abbrev Parser := Routine (List Token)

instance {σ : Type} : Monad (Routine σ) where
  pure a := fun s => ⟨.ok a, s, 0⟩
  bind p f := fun s =>
    match p s with
    | ⟨.error e, rest, n⟩ => ⟨.error e, rest, n⟩
    | ⟨.ok a, rest, n⟩ =>
      let o := f a rest
      ⟨o.result, o.rest, n + o.missing⟩

section Sequences

variable {σ α β : Type} {p : Routine σ α} {f : α → Routine σ β} {s rest : σ} {n : Nat}

theorem Parser.bind_of_error {e : ParseError} (h : p s = ⟨.error e, rest, n⟩) :
    (p >>= f) s = ⟨.error e, rest, n⟩ := by
  simp only [Bind.bind, h]

theorem Parser.bind_of_ok {a : α} (h : p s = ⟨.ok a, rest, n⟩) :
    (p >>= f) s = ⟨(f a rest).result, (f a rest).rest, n + (f a rest).missing⟩ := by
  simp only [Bind.bind, h]

end Sequences

/-! ### Single tokens -/

/-- What is asked of a token: a kind, perhaps a text, and perhaps a label for messages. -/
structure Pattern where
  kind : Token.Kind
  text : Option String
  label : Option String

namespace Pattern

/-- The reserved word `w`. -/
def word (w : String) : Pattern := ⟨.keyword, some w, none⟩

/-- The operator `s`. -/
def operator (s : String) : Pattern := ⟨.operator, some s, none⟩

/-- Any name that is not reserved. -/
def variableName : Pattern := ⟨.identifier, none, some "variable name"⟩

/-- Whether a token is what is asked for. -/
def accepts (p : Pattern) (t : Token) : Bool :=
  t.kind = p.kind && (p.text.isNone || p.text = some t.text)

/-- How a message names what is asked for: by its label, its text or its kind. -/
def expected (p : Pattern) : String :=
  match p.label, p.text with
  | some l, _ => l
  | none, some s => "'" ++ s ++ "'"
  | none, none => p.kind.name

end Pattern

namespace Parser

variable {σ α β : Type} [Tape σ]

/-- Takes the current token if `f` makes a result of it. Otherwise the token stays, the result is
`other`, and the number of missing semicolons is `n`. -/
def single (f : Token → Option (Except ParseError α)) (other : Option Token → Except ParseError α)
    (n : Nat) : Routine σ α := fun s =>
  match (Tape.current s).bind f with
  | some r => ⟨r, Tape.next s, 0⟩
  | none => ⟨other (Tape.current s), s, n⟩

/-- Looks at the current token, and takes nothing. -/
def peek (g : Option Token → α) : Routine σ α :=
  single (fun _ => none) (fun found => .ok (g found)) 0

/-- Fails at the current token. -/
def fail (e : Option Token → ParseError) : Routine σ α :=
  single (fun _ => none) (fun found => .error (e found)) 0

/-- Takes the current token if `f` makes something of it, and refuses it otherwise. -/
def accept (f : Token → Option α) (message : String) : Routine σ α :=
  single (fun t => (f t).map .ok) (fun found => .error (.refused message found)) 0

/-- Takes the current token if it is what is asked for. -/
def take (p : Pattern) : Routine σ Token :=
  accept (Option.guard p.accepts) ("Expected " ++ p.expected)

/-- The data type that a token names. -/
def datatype? (t : Token) : Option String :=
  if t.kind = .keyword ∧ t.text ∈ Token.datatypes then some t.text else none

/-- Takes the name of a data type. -/
def datatype : Routine σ String :=
  accept datatype? "Expected valid data type (teksto or bilang)"

/-- Takes the semicolon after a statement, or notes that it is missing. -/
def semicolon : Routine σ Unit :=
  single (fun t => if (Pattern.operator ";").accepts t then some (.ok ()) else none)
    (fun _ => .ok ()) 1

/-- What a single token decides. -/
theorem single_cases (f : Token → Option (Except ParseError α))
    (other : Option Token → Except ParseError α) (n : Nat) (s : σ) :
    (∃ t r, Tape.current s = some t ∧ f t = some r ∧ single f other n s = ⟨r, Tape.next s, 0⟩) ∨
      (Tape.current s).bind f = none ∧ single f other n s = ⟨other (Tape.current s), s, n⟩ := by
  unfold single
  split
  · next r hr =>
    obtain ⟨t, ht, hf⟩ := Option.bind_eq_some_iff.mp hr
    exact .inl ⟨t, r, ht, hf, rfl⟩
  · next h => exact .inr ⟨h, rfl⟩

theorem peek_eq (g : Option Token → α) (s : σ) : peek g s = ⟨.ok (g (Tape.current s)), s, 0⟩ := by
  rw [peek, single, Option.bind_fun_none]

/-! ### Routines that go forward -/

/-- A routine leaves the tape where it was, or further on. -/
def Forward (p : Routine σ α) : Prop :=
  ∀ s, Tape.Reaches s (p s).rest

/-- A routine that goes forward, and takes at least one token when it succeeds. -/
structure Advances (p : Routine σ α) : Prop where
  forward : Forward p
  left_lt : ∀ {s rest a n}, p s = ⟨.ok a, rest, n⟩ → Tape.left rest < Tape.left s

variable {p : Routine σ α} {f : α → Routine σ β}

theorem Forward.suffix {p : Parser α} (hp : Forward p) (ts : List Token) : (p ts).rest <:+ ts :=
  (hp ts).suffix

theorem Advances.length_lt {p : Parser α} (hp : Advances p) {ts rest : List Token} {a : α} {n : Nat}
    (h : p ts = ⟨.ok a, rest, n⟩) : rest.length < ts.length :=
  hp.left_lt h

theorem forward_pure (a : α) : Forward (pure a : Routine σ α) := fun s => .refl s

theorem reaches_bind {s : σ} (hp : Tape.Reaches s (p s).rest)
    (hf : ∀ a rest n, p s = ⟨.ok a, rest, n⟩ → Tape.Reaches rest (f a rest).rest) :
    Tape.Reaches s ((p >>= f) s).rest := by
  rcases ho : p s with ⟨e | a, rest, n⟩
  · rw [ho] at hp
    rw [bind_of_error ho]
    exact hp
  · rw [ho] at hp
    rw [bind_of_ok ho]
    exact hp.trans (hf a rest n ho)

theorem Forward.bind (hp : Forward p) (hf : ∀ a, Forward (f a)) : Forward (p >>= f) :=
  fun s => reaches_bind (hp s) fun a rest _ _ => hf a rest

theorem Advances.bind (hp : Advances p) (hf : ∀ a, Forward (f a)) : Advances (p >>= f) := by
  refine ⟨hp.forward.bind hf, fun {s rest b n} h => ?_⟩
  simp only [Bind.bind] at h
  split at h
  · cases h
  · next a rest' n' ho =>
    have hr : (f a rest').rest = rest := congrArg Outcome.rest h
    have hle := (hf a rest').left_le
    rw [hr] at hle
    exact Nat.lt_of_le_of_lt hle (hp.left_lt ho)

theorem forward_single (f : Token → Option (Except ParseError α))
    (other : Option Token → Except ParseError α) (n : Nat) :
    Forward (single f other n : Routine σ α) := by
  intro s
  rcases single_cases f other n s with ⟨t, r, -, -, h⟩ | ⟨-, h⟩
  · rw [h]
    exact Tape.reaches_next s
  · rw [h]
    exact .refl s

theorem advances_single {f : Token → Option (Except ParseError α)}
    {other : Option Token → Except ParseError α} {n : Nat}
    (hother : ∀ found a, other found ≠ .ok a) : Advances (single f other n : Routine σ α) := by
  refine ⟨forward_single f other n, fun {s rest a k} h => ?_⟩
  rcases single_cases f other n s with ⟨t, r, ht, -, hs⟩ | ⟨-, hs⟩
  · rw [hs] at h
    cases h
    exact Tape.left_next_lt ht
  · rw [hs] at h
    exact absurd (congrArg Outcome.result h) (hother _ a)

theorem advances_accept (f : Token → Option α) (message : String) :
    Advances (accept f message : Routine σ α) :=
  advances_single fun _ _ h => by cases h

end Parser

end Bagay
