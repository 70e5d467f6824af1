import Bagay.Parser.Grammar
import Bagay.Proofs.Spelling

/-!
# What parsing routines do

A sequence of routines is taken apart by `bind_cases`: either its first part failed, or the first
part succeeded and the second ran on what it left. For the routines that take a single token,
`take_eq_ok_iff`, `datatype_eq_ok_iff` and `operand_eq_ok_iff` say exactly when they succeed, and
`accept_eq_error` and `operand_eq_error` how they fail; `semicolon_cases` says what the optional one
does.
-/

namespace Bagay

namespace Parser

/-! ### Sequences -/

section Sequences

variable {σ α β : Type} {p : Routine σ α} {f : α → Routine σ β} {s rest : σ} {n : Nat}

/-- What a sequence can do. -/
theorem bind_cases {r : Except ParseError β} (h : (p >>= f) s = ⟨r, rest, n⟩) :
    (∃ e, r = .error e ∧ p s = ⟨.error e, rest, n⟩) ∨
      ∃ a mid k m, p s = ⟨.ok a, mid, k⟩ ∧ f a mid = ⟨r, rest, m⟩ ∧ n = k + m := by
  rcases hp : p s with ⟨e | a, mid, k⟩
  · rw [bind_of_error hp] at h
    cases h
    exact .inl ⟨e, rfl, rfl⟩
  · rw [bind_of_ok hp] at h
    cases h
    exact .inr ⟨a, mid, k, _, rfl, rfl, rfl⟩

theorem bind_eq_ok_iff {b : β} :
    (p >>= f) s = ⟨.ok b, rest, n⟩ ↔
      ∃ a mid k m, p s = ⟨.ok a, mid, k⟩ ∧ f a mid = ⟨.ok b, rest, m⟩ ∧ n = k + m := by
  constructor
  · intro h
    rcases bind_cases h with ⟨e, he, -⟩ | h
    · cases he
    · exact h
  · rintro ⟨a, mid, k, m, hp, hf, rfl⟩
    rw [bind_of_ok hp, hf]

theorem pure_eq_ok_iff {a b : α} :
    (pure a : Routine σ α) s = ⟨.ok b, rest, n⟩ ↔ b = a ∧ rest = s ∧ n = 0 := by
  constructor
  · intro h; cases h; exact ⟨rfl, rfl, rfl⟩
  · rintro ⟨rfl, rfl, rfl⟩; rfl

end Sequences

variable {α β : Type} {ts rest : List Token} {n : Nat}

/-- What is taken by a routine that takes the first token and leaves the others to a second one. -/
theorem exists_taken_of_cons {p q : Parser α} {taken : List Token} {t : Token}
    {r : Except ParseError α} (hfw : Forward q) (hpq : p (t :: ts) = q ts)
    (hts : t :: ts = taken ++ rest) (hp : p (t :: ts) = ⟨r, rest, n⟩) :
    ∃ us, taken = t :: us ∧ ts = us ++ rest ∧ q ts = ⟨r, rest, n⟩ := by
  rw [hpq] at hp
  obtain ⟨us, hus⟩ := hfw.suffix ts
  rw [hp] at hus
  refine ⟨us, ?_, hus.symm, hp⟩
  rw [← hus, ← List.cons_append] at hts
  exact (List.append_cancel_right hts).symm

/-! ### Loops as sequences -/

section Loops

variable (read : String → Option Float) {t : Token}

theorem operator?_cons (t : Token) (ts : List Token) : operator? (t :: ts) = Op.ofToken? t := rfl

theorem operations_nil (left : Expr) :
    (operations read left : Parser Expr) [] = ⟨.ok left, [], 0⟩ :=
  operations_of_none read (s := []) rfl left

theorem operations_cons_of_none (left : Expr) (h : Op.ofToken? t = none) (ts : List Token) :
    operations read left (t :: ts) = ⟨.ok left, t :: ts, 0⟩ :=
  operations_of_none read ((operator?_cons t ts).trans h) left

theorem operations_cons_of_some {op : Op} (left : Expr) (h : Op.ofToken? t = some op)
    (ts : List Token) : operations read left (t :: ts) =
      (operand read >>= fun right => operations read (.binary op left right)) ts :=
  operations_of_some read ((operator?_cons t ts).trans h) left

theorem program_nil : (program read : Parser (List Stmt)) [] = ⟨.ok [], [], 0⟩ :=
  program_of_none read (s := []) rfl

theorem program_cons (t : Token) (ts : List Token) : program read (t :: ts) =
    (statement read >>= fun s => program read >>= fun ss => pure (s :: ss)) (t :: ts) :=
  program_of_some read (s := t :: ts) rfl

end Loops

/-! ### Success at a single token -/

section Single

variable {f : Token → Option (Except ParseError α)} {other : Option Token → Except ParseError α}
  {k : Nat} {t : Token}

theorem single_cons_of_some {r : Except ParseError α} (h : f t = some r) (ts : List Token) :
    single f other k (t :: ts) = ⟨r, ts, 0⟩ := by
  have hbind : (Tape.current (t :: ts)).bind f = some r := h
  rw [single, hbind]
  rfl

theorem single_cons_of_none (h : f t = none) (ts : List Token) :
    single f other k (t :: ts) = ⟨other (some t), t :: ts, k⟩ := by
  have hbind : (Tape.current (t :: ts)).bind f = none := h
  rw [single, hbind]
  rfl

/-- A routine that succeeds at a token only takes it. -/
theorem single_eq_ok_iff (hother : ∀ found a, other found ≠ .ok a) {a : α} :
    single f other k ts = ⟨.ok a, rest, n⟩ ↔
      ∃ t, ts = t :: rest ∧ f t = some (.ok a) ∧ n = 0 := by
  constructor
  · intro h
    rcases single_cases f other k ts with ⟨t, r, ht, hf, hs⟩ | ⟨-, hs⟩
    · obtain ⟨us, rfl⟩ := List.head?_eq_some_iff.mp ht
      rw [hs] at h
      cases h
      exact ⟨t, rfl, hf, rfl⟩
    · rw [hs] at h
      exact absurd (congrArg Outcome.result h) (hother _ a)
  · rintro ⟨t, rfl, hf, rfl⟩
    exact single_cons_of_some hf rest

end Single

theorem accept_eq_ok_iff {f : Token → Option α} {message : String} {a : α} :
    accept f message ts = ⟨.ok a, rest, n⟩ ↔ ∃ t, ts = t :: rest ∧ f t = some a ∧ n = 0 := by
  unfold accept
  rw [single_eq_ok_iff fun _ _ h => by cases h]
  simp

theorem take_eq_ok_iff {q : Pattern} {t : Token} :
    take q ts = ⟨.ok t, rest, n⟩ ↔ ts = t :: rest ∧ q.accepts t ∧ n = 0 := by
  unfold take
  rw [accept_eq_ok_iff]
  simp only [Option.guard_eq_some_iff]
  constructor
  · rintro ⟨t', rfl, ⟨rfl, ht⟩, rfl⟩
    exact ⟨rfl, ht, rfl⟩
  · rintro ⟨rfl, ht, rfl⟩
    exact ⟨t, rfl, ⟨rfl, ht⟩, rfl⟩

theorem take_bind_eq_ok_iff {q : Pattern} {f : Token → Parser β} {b : β} :
    (take q >>= f) ts = ⟨.ok b, rest, n⟩ ↔
      ∃ t us, ts = t :: us ∧ q.accepts t ∧ f t us = ⟨.ok b, rest, n⟩ := by
  rw [bind_eq_ok_iff]
  constructor
  · rintro ⟨t, us, k, m, ht, hf, rfl⟩
    obtain ⟨rfl, ha, rfl⟩ := take_eq_ok_iff.mp ht
    exact ⟨t, us, rfl, ha, by rw [hf, Nat.zero_add]⟩
  · rintro ⟨t, us, rfl, ha, hf⟩
    exact ⟨t, us, 0, n, take_eq_ok_iff.mpr ⟨rfl, ha, rfl⟩, hf, (Nat.zero_add n).symm⟩

theorem accepts_word_iff {w : String} {t : Token} :
    (Pattern.word w).accepts t ↔ t = ⟨.keyword, w⟩ := by
  obtain ⟨k, s⟩ := t
  show (decide (k = .keyword) && (false || decide (some w = some s))) = true ↔ _
  simp [@eq_comm _ w]

theorem accepts_operator_iff {s : String} {t : Token} :
    (Pattern.operator s).accepts t ↔ t = ⟨.operator, s⟩ := by
  obtain ⟨k, s'⟩ := t
  show (decide (k = .operator) && (false || decide (some s = some s'))) = true ↔ _
  simp [@eq_comm _ s]

theorem accepts_variableName_iff {t : Token} :
    Pattern.variableName.accepts t ↔ ∃ name, t = ⟨.identifier, name⟩ := by
  obtain ⟨k, s⟩ := t
  show (decide (k = .identifier) && (true || _)) = true ↔ _
  simp

theorem datatype?_eq_some_iff {t : Token} {type : String} :
    datatype? t = some type ↔ t = ⟨.keyword, type⟩ ∧ type ∈ Token.datatypes := by
  obtain ⟨k, s⟩ := t
  unfold datatype?
  constructor
  · intro h
    split at h
    · next ht =>
      obtain ⟨rfl, hs⟩ := ht
      cases h
      exact ⟨rfl, hs⟩
    · cases h
  · rintro ⟨h, ht⟩
    cases h
    exact if_pos ⟨rfl, ht⟩

theorem datatype_eq_ok_iff {type : String} :
    datatype ts = ⟨.ok type, rest, n⟩ ↔
      ts = ⟨.keyword, type⟩ :: rest ∧ type ∈ Token.datatypes ∧ n = 0 := by
  unfold datatype
  rw [accept_eq_ok_iff]
  simp only [datatype?_eq_some_iff]
  constructor
  · rintro ⟨t, rfl, ⟨rfl, ht⟩, rfl⟩
    exact ⟨rfl, ht, rfl⟩
  · rintro ⟨rfl, ht, rfl⟩
    exact ⟨_, rfl, ⟨rfl, ht⟩, rfl⟩

theorem datatype_bind_eq_ok_iff {f : String → Parser β} {b : β} :
    (datatype >>= f) ts = ⟨.ok b, rest, n⟩ ↔
      ∃ type us, ts = ⟨.keyword, type⟩ :: us ∧ type ∈ Token.datatypes ∧
        f type us = ⟨.ok b, rest, n⟩ := by
  rw [bind_eq_ok_iff]
  constructor
  · rintro ⟨type, us, k, m, ht, hf, rfl⟩
    obtain ⟨rfl, hmem, rfl⟩ := datatype_eq_ok_iff.mp ht
    exact ⟨type, us, rfl, hmem, by rw [hf, Nat.zero_add]⟩
  · rintro ⟨type, us, rfl, hmem, hf⟩
    exact ⟨type, us, 0, n, datatype_eq_ok_iff.mpr ⟨rfl, hmem, rfl⟩, hf, (Nat.zero_add n).symm⟩

theorem operand?_eq_ok_iff {read : String → Option Float} {t : Token} {e : Expr} :
    operand? read t = some (.ok e) ↔ t.IsOperand read e := by
  obtain ⟨k, s⟩ := t
  constructor
  · intro h
    unfold operand? at h
    split at h
    · next hk =>
      cases hk
      split at h
      · next hx => cases h; exact .number hx
      · cases h
    · next hk => cases hk; cases h; exact .text s
    · next hk => cases hk; cases h; exact .name s
    · cases h
  · intro h
    cases h with
    | number hx => simp [operand?, hx]
    | text => rfl
    | name => rfl

theorem operand_eq_ok_iff {read : String → Option Float} {e : Expr} :
    operand read ts = ⟨.ok e, rest, n⟩ ↔ ∃ t, ts = t :: rest ∧ t.IsOperand read e ∧ n = 0 := by
  unfold operand
  rw [single_eq_ok_iff fun _ _ h => by cases h]
  simp only [operand?_eq_ok_iff]

/-! ### Failure at a single token -/

/-- A routine fails at a token that stays, or at one that it takes. -/
theorem single_eq_error {f : Token → Option (Except ParseError α)}
    {other : Option Token → Except ParseError α} {k : Nat} {e : ParseError}
    (h : single f other k ts = ⟨.error e, rest, n⟩) :
    rest = ts ∧ other ts.head? = .error e ∨ ∃ t, ts = t :: rest ∧ f t = some (.error e) := by
  rcases single_cases f other k ts with ⟨t, r, ht, hf, hs⟩ | ⟨-, hs⟩
  · obtain ⟨us, rfl⟩ := List.head?_eq_some_iff.mp ht
    rw [hs] at h
    cases h
    exact .inr ⟨t, rfl, hf⟩
  · rw [hs] at h
    injection h with hresult hrest
    exact .inl ⟨hrest.symm, hresult⟩

theorem accept_eq_error {f : Token → Option α} {message : String} {e : ParseError}
    (h : accept f message ts = ⟨.error e, rest, n⟩) :
    rest = ts ∧ e = .refused message ts.head? := by
  rcases single_eq_error h with ⟨rfl, he⟩ | ⟨t, -, hf⟩
  · cases he
    exact ⟨rfl, rfl⟩
  · simp at hf

theorem operand?_eq_error {read : String → Option Float} {t : Token} {e : ParseError}
    (h : operand? read t = some (.error e)) :
    ∃ text, t = ⟨.number, text⟩ ∧ read text = none ∧ e = .badNumber text := by
  obtain ⟨k, text⟩ := t
  unfold operand? at h
  split at h
  · next hk =>
    cases hk
    split at h
    · cases h
    · next hx => cases h; exact ⟨text, rfl, hx, rfl⟩
  · cases h
  · cases h
  · cases h

/-- An operand fails at a token that is none, and behind a number that cannot be read. -/
theorem operand_eq_error {read : String → Option Float} {e : ParseError}
    (h : operand read ts = ⟨.error e, rest, n⟩) :
    rest = ts ∧ e = .unexpected ts.head? ∨
      ∃ text, ts = ⟨.number, text⟩ :: rest ∧ read text = none ∧ e = .badNumber text := by
  rcases single_eq_error h with ⟨rfl, he⟩ | ⟨t, rfl, ht⟩
  · cases he
    exact .inl ⟨rfl, rfl⟩
  · obtain ⟨text, rfl, hread, rfl⟩ := operand?_eq_error ht
    exact .inr ⟨text, rfl, hread, rfl⟩

/-! ### The semicolon -/

theorem semicolon_cases (ts : List Token) :
    (∃ rest, ts = Token.semicolon :: rest ∧ semicolon ts = ⟨.ok (), rest, 0⟩) ∨
      ts.head? ≠ some Token.semicolon ∧ semicolon ts = ⟨.ok (), ts, 1⟩ := by
  rcases ts with _ | ⟨t, ts⟩
  · exact .inr ⟨by simp, rfl⟩
  · by_cases ht : (Pattern.operator ";").accepts t
    · obtain rfl := accepts_operator_iff.mp ht
      exact .inl ⟨ts, rfl, rfl⟩
    · refine .inr ⟨fun h => ht (accepts_operator_iff.mpr (by simpa [Token.semicolon] using h)), ?_⟩
      exact single_cons_of_none (if_neg ht) ts

end Parser

end Bagay
