import Bagay.Proofs.Parser.Routine
import Mathlib.Tactic.SplitIfs

/-!
# What the parser accepts

A routine succeeds exactly on the spellings of its result. An expression is taken as far as
operators follow, and a statement takes its semicolon if there is one; neither does harm, since the
next statement starts with a keyword.

* `expr_append`: on a spelling, the routine for expressions reaches the loop over the operators with
  the whole expression on its left.
* `expr_eq_ok_iff`, `statement_eq_ok_iff`: a success is a spelling, followed by what cannot extend
  it.
* `program_sound`, `program_complete`: what is accepted is a spelling, and every spelling is.
* `program_returns_iff_spelled`: a program is accepted, with its statements and its missing
  semicolons, exactly if it is spelled so; hence the grammar is unambiguous.
-/

namespace Bagay

theorem Op.ofToken?_eq_some_iff {t : Token} {op : Op} : ofToken? t = some op ↔ t = op.token := by
  obtain ⟨k, s⟩ := t
  unfold ofToken? token
  split_ifs with hk
  · simp only at hk
    subst hk
    simp [ofSymbol?_eq_some_iff]
  · simp only at hk
    simp [hk]

/-- An expression can end before these tokens: they do not start with an operator. -/
def EndsExpr (ts : List Token) : Prop := ∀ t ∈ ts.head?, Op.ofToken? t = none

theorem endsExpr_nil : EndsExpr [] := by simp [EndsExpr]

theorem endsExpr_semicolon (ts : List Token) : EndsExpr (Token.semicolon :: ts) := by
  intro t ht
  cases ht
  decide

theorem Program.Spelled.endsExpr {read : String → Option Float} {ss : List Stmt} {w : Nat}
    {ts : List Token} (h : Program.Spelled read ss w ts) : EndsExpr ts := by
  intro t ht
  have hk := h.kind_of_mem_head? t ht
  simp [Op.ofToken?, hk]

namespace Parser

variable {read : String → Option Float} {ts rest : List Token} {n : Nat}

/-! ### Expressions -/

theorem operator?_eq_some_iff {op : Op} :
    operator? ts = some op ↔ ∃ us, ts = op.token :: us := by
  rcases ts with _ | ⟨t, ts⟩
  · exact ⟨nofun, nofun⟩
  · rw [operator?_cons, Op.ofToken?_eq_some_iff]
    simp

theorem endsExpr_of_operator?_eq_none (h : operator? ts = none) : EndsExpr ts := by
  intro t ht
  obtain ⟨us, rfl⟩ := List.head?_eq_some_iff.mp ht
  exact (operator?_cons t us).symm.trans h

theorem operations_of_endsExpr (e : Expr) (h : EndsExpr ts) :
    operations read e ts = ⟨.ok e, ts, 0⟩ := by
  rcases ts with _ | ⟨t, ts⟩
  · exact operations_nil read e
  · exact operations_cons_of_none read e (h t rfl) ts

theorem operations_cons_cons {t : Token} {right : Expr} (op : Op) (left : Expr)
    (h : t.IsOperand read right) (ts : List Token) :
    operations read left (op.token :: t :: ts) = operations read (.binary op left right) ts := by
  have ht : operand read (t :: ts) = ⟨.ok right, ts, 0⟩ := operand_eq_ok_iff.mpr ⟨t, rfl, h, rfl⟩
  rw [operations_cons_of_some read left (Op.ofToken?_eq_some_iff.mpr rfl), bind_of_ok ht,
    Nat.zero_add]

/-- On a spelling, the loop over the operators is reached with the whole expression on its left. -/
theorem expr_append {e : Expr} {us : List Token} (h : e.Spelled read us) (rest : List Token) :
    expr read (us ++ rest) = operations read e rest := by
  induction h generalizing rest with
  | @operand t e ht =>
    have ho : operand read (t :: rest) = ⟨.ok e, rest, 0⟩ :=
      operand_eq_ok_iff.mpr ⟨t, rfl, ht, rfl⟩
    rw [expr, List.singleton_append, bind_of_ok ho, Nat.zero_add]
  | binary op hl hr ih =>
    rw [List.append_assoc, ih]
    exact operations_cons_cons op _ hr rest

/-- What the loop over the operators takes extends the spelling of what stands on its left. -/
theorem operations_sound {left e : Expr} {ls : List Token} (hl : left.Spelled read ls)
    (h : operations read left ts = ⟨.ok e, rest, n⟩) :
    ∃ us, ts = us ++ rest ∧ e.Spelled read (ls ++ us) ∧ EndsExpr rest ∧ n = 0 := by
  induction left, ts using @operations_induction (List Token) _ read generalizing ls n with
  | none left ts hop =>
    rw [operations_of_none read hop] at h
    cases h
    exact ⟨[], rfl, by simpa using hl, endsExpr_of_operator?_eq_none hop, rfl⟩
  | some left ts op hop ih =>
    rw [operations_of_some read hop] at h
    obtain ⟨right, mid, i, m, hr, ho, rfl⟩ := bind_eq_ok_iff.mp h
    obtain ⟨ts, rfl⟩ := operator?_eq_some_iff.mp hop
    obtain ⟨t, rfl, ht, rfl⟩ := operand_eq_ok_iff.mp hr
    obtain ⟨us, rfl, he, hrest, rfl⟩ := ih right mid 0 hr (.binary op hl ht) ho
    exact ⟨op.token :: t :: us, rfl, by simpa using he, hrest, rfl⟩

theorem expr_eq_ok_iff {e : Expr} :
    expr read ts = ⟨.ok e, rest, n⟩ ↔
      ∃ us, ts = us ++ rest ∧ e.Spelled read us ∧ EndsExpr rest ∧ n = 0 := by
  constructor
  · intro h
    obtain ⟨left, mid, k, m, hl, ho, rfl⟩ := bind_eq_ok_iff.mp h
    obtain ⟨t, rfl, ht, rfl⟩ := operand_eq_ok_iff.mp hl
    obtain ⟨us, rfl, he, hrest, rfl⟩ := operations_sound (.operand ht) ho
    exact ⟨t :: us, rfl, he, hrest, rfl⟩
  · rintro ⟨us, rfl, he, hrest, rfl⟩
    rw [expr_append he, operations_of_endsExpr e hrest]

/-! ### Statements -/

theorem ending_eq_ok_iff {k : Expr → Stmt} {s : Stmt} :
    ending read k ts = ⟨.ok s, rest, n⟩ ↔
      ∃ value us mid, ts = us ++ mid ∧ value.Spelled read us ∧ EndsExpr mid ∧
        semicolon mid = ⟨.ok (), rest, n⟩ ∧ s = k value := by
  unfold ending
  rw [bind_eq_ok_iff]
  constructor
  · rintro ⟨value, mid, i, m, he, h, rfl⟩
    obtain ⟨us, rfl, hv, hmid, rfl⟩ := expr_eq_ok_iff.mp he
    obtain ⟨⟨⟩, mid', i, j, hs, hp, rfl⟩ := bind_eq_ok_iff.mp h
    obtain ⟨rfl, rfl, rfl⟩ := pure_eq_ok_iff.mp hp
    exact ⟨value, us, mid, rfl, hv, hmid, by simpa using hs, rfl⟩
  · rintro ⟨value, us, mid, rfl, hv, hmid, hs, rfl⟩
    have hp : (pure (k value) : Parser Stmt) rest = ⟨.ok (k value), rest, 0⟩ := rfl
    exact ⟨value, mid, 0, n, expr_eq_ok_iff.mpr ⟨us, rfl, hv, hmid, rfl⟩,
      bind_eq_ok_iff.mpr ⟨(), rest, n, 0, hs, hp, rfl⟩, (Nat.zero_add n).symm⟩

/-- The semicolon is never an error: if the end of a statement fails, its value does. -/
theorem ending_eq_error {k : Expr → Stmt} {e : ParseError}
    (h : ending read k ts = ⟨.error e, rest, n⟩) : expr read ts = ⟨.error e, rest, n⟩ := by
  rcases bind_cases h with ⟨e', he', hv⟩ | ⟨v, mid, i, m, hv, hs, -⟩
  · cases he'
    exact hv
  · rcases semicolon_cases mid with ⟨_, -, hc⟩ | ⟨-, hc⟩ <;>
      · rw [bind_of_ok hc] at hs
        cases hs

theorem declaration_eq_ok_iff {s : Stmt} :
    declaration read ts = ⟨.ok s, rest, n⟩ ↔
      ∃ name type value us mid, ts = ⟨.keyword, "bagay"⟩ :: ⟨.identifier, name⟩ ::
          ⟨.operator, "->"⟩ :: ⟨.keyword, type⟩ :: ⟨.operator, "="⟩ :: (us ++ mid) ∧
        type ∈ Token.datatypes ∧ value.Spelled read us ∧ EndsExpr mid ∧
        semicolon mid = ⟨.ok (), rest, n⟩ ∧ s = .declare name type value := by
  simp only [declaration, declarationTail, take_bind_eq_ok_iff, datatype_bind_eq_ok_iff,
    ending_eq_ok_iff, accepts_word_iff, accepts_operator_iff, accepts_variableName_iff]
  constructor
  · rintro ⟨_, _, rfl, rfl, _, _, rfl, ⟨name, rfl⟩, _, _, rfl, rfl, type, _, rfl, htype, _, _, rfl,
      rfl, value, us, mid, rfl, hv, hmid, hs, rfl⟩
    exact ⟨name, type, value, us, mid, rfl, htype, hv, hmid, hs, rfl⟩
  · rintro ⟨name, type, value, us, mid, rfl, htype, hv, hmid, hs, rfl⟩
    exact ⟨_, _, rfl, rfl, _, _, rfl, ⟨name, rfl⟩, _, _, rfl, rfl, type, _, rfl, htype, _, _, rfl,
      rfl, value, us, mid, rfl, hv, hmid, hs, rfl⟩

theorem print_eq_ok_iff {s : Stmt} :
    print read ts = ⟨.ok s, rest, n⟩ ↔
      ∃ value us mid, ts = ⟨.keyword, "ipakita"⟩ :: (us ++ mid) ∧ value.Spelled read us ∧
        EndsExpr mid ∧ semicolon mid = ⟨.ok (), rest, n⟩ ∧ s = .print value := by
  simp only [print, take_bind_eq_ok_iff, ending_eq_ok_iff, accepts_word_iff]
  constructor
  · rintro ⟨_, _, rfl, rfl, value, us, mid, rfl, hv, hmid, hs, rfl⟩
    exact ⟨value, us, mid, rfl, hv, hmid, hs, rfl⟩
  · rintro ⟨value, us, mid, rfl, hv, hmid, hs, rfl⟩
    exact ⟨_, _, rfl, rfl, value, us, mid, rfl, hv, hmid, hs, rfl⟩

theorem mem_datatypes_iff {type : String} :
    type ∈ Token.datatypes ↔ type = "teksto" ∨ type = "bilang" := by
  simp [Token.datatypes]

theorem statement_cons (t : Token) (us : List Token) :
    statement read (t :: us) = statementFrom read (some t) (t :: us) := rfl

theorem statement_declare (us : List Token) :
    statement read (⟨.keyword, "bagay"⟩ :: us) = declaration read (⟨.keyword, "bagay"⟩ :: us) := by
  have hd : (Pattern.word Token.declareWord).accepts ⟨.keyword, "bagay"⟩ := by decide
  rw [statement_cons, statementFrom, if_pos hd]

theorem statement_print (us : List Token) :
    statement read (⟨.keyword, "ipakita"⟩ :: us) = print read (⟨.keyword, "ipakita"⟩ :: us) := by
  have hd : ¬ (Pattern.word Token.declareWord).accepts ⟨.keyword, "ipakita"⟩ := by decide
  have hp : (Pattern.word Token.printWord).accepts ⟨.keyword, "ipakita"⟩ := by decide
  rw [statement_cons, statementFrom, if_neg hd, if_pos hp]

/-- Tokens that start no statement are refused at once. -/
theorem statement_of_not_keyword {t : Token} {us : List Token} (hd : t ≠ ⟨.keyword, "bagay"⟩)
    (hp : t ≠ ⟨.keyword, "ipakita"⟩) :
    statement read (t :: us) = ⟨.error (.unexpected (some t)), t :: us, 0⟩ := by
  have hd' : ¬ (Pattern.word Token.declareWord).accepts t := fun h => hd (accepts_word_iff.mp h)
  have hp' : ¬ (Pattern.word Token.printWord).accepts t := fun h => hp (accepts_word_iff.mp h)
  rw [statement_cons, statementFrom, if_neg hd', if_neg hp']
  rfl

/-- **Statements**: a success is a spelling, then what cannot extend it, then the semicolon. -/
theorem statement_eq_ok_iff {s : Stmt} :
    statement read ts = ⟨.ok s, rest, n⟩ ↔
      ∃ us mid, ts = us ++ mid ∧ s.Spelled read us ∧ EndsExpr mid ∧
        semicolon mid = ⟨.ok (), rest, n⟩ := by
  constructor
  · intro h
    rcases ts with _ | ⟨t, ts⟩
    · cases h
    by_cases hd : t = ⟨.keyword, "bagay"⟩
    · subst hd
      rw [statement_declare, declaration_eq_ok_iff] at h
      obtain ⟨name, type, value, us, mid, hts, htype, hv, hmid, hs, rfl⟩ := h
      exact ⟨_, mid, hts, .declare name (mem_datatypes_iff.mp htype) hv, hmid, hs⟩
    by_cases hp : t = ⟨.keyword, "ipakita"⟩
    · subst hp
      rw [statement_print, print_eq_ok_iff] at h
      obtain ⟨value, us, mid, hts, hv, hmid, hs, rfl⟩ := h
      exact ⟨_, mid, hts, .print hv, hmid, hs⟩
    · rw [statement_of_not_keyword hd hp] at h
      cases h
  · rintro ⟨us, mid, rfl, hs, hmid, hsemi⟩
    cases hs with
    | @declare type value us name htype hv =>
      refine (statement_declare _).trans (declaration_eq_ok_iff.mpr ?_)
      exact ⟨name, type, value, us, mid, rfl, mem_datatypes_iff.mpr htype, hv, hmid, hsemi, rfl⟩
    | @print value us hv =>
      refine (statement_print _).trans (print_eq_ok_iff.mpr ?_)
      exact ⟨value, us, mid, rfl, hv, hmid, hsemi, rfl⟩

/-- A statement with its semicolon, or without it, is a program. -/
theorem statement_sound {s : Stmt} (h : statement read ts = ⟨.ok s, rest, n⟩) :
    ∃ us, ts = us ++ rest ∧ Program.Spelled read [s] n us := by
  obtain ⟨us, mid, rfl, hs, -, hsemi⟩ := statement_eq_ok_iff.mp h
  rcases semicolon_cases mid with ⟨rest', rfl, hc⟩ | ⟨-, hc⟩
  · rw [hc] at hsemi
    cases hsemi
    exact ⟨us ++ [Token.semicolon], by simp, .closed hs .nil⟩
  · rw [hc] at hsemi
    cases hsemi
    exact ⟨us, rfl, by simpa using Program.Spelled.bare hs .nil⟩

/-! ### Programs -/

theorem program_eq_ok_iff_of_ne_nil {A : List Stmt} (hts : ts ≠ []) :
    program read ts = ⟨.ok A, rest, n⟩ ↔
      ∃ s ss mid k m, statement read ts = ⟨.ok s, mid, k⟩ ∧ program read mid = ⟨.ok ss, rest, m⟩ ∧
        A = s :: ss ∧ n = k + m := by
  obtain ⟨t, us, rfl⟩ := List.exists_cons_of_ne_nil hts
  rw [program_cons, bind_eq_ok_iff]
  constructor
  · rintro ⟨s, mid, k, m, hs, h, rfl⟩
    obtain ⟨ss, mid', i, j, hss, hp, rfl⟩ := bind_eq_ok_iff.mp h
    obtain ⟨rfl, rfl, rfl⟩ := pure_eq_ok_iff.mp hp
    exact ⟨s, ss, mid, k, i, hs, hss, rfl, rfl⟩
  · rintro ⟨s, ss, mid, k, m, hs, hss, rfl, rfl⟩
    have hp : (pure (s :: ss) : Parser (List Stmt)) rest = ⟨.ok (s :: ss), rest, 0⟩ := rfl
    exact ⟨s, mid, k, m, hs, bind_eq_ok_iff.mpr ⟨ss, rest, m, 0, hss, hp, rfl⟩, rfl⟩

/-- A program that is accepted is spelled so, and nothing of it is left. -/
theorem program_sound {A : List Stmt} (h : program read ts = ⟨.ok A, rest, n⟩) :
    Program.Spelled read A n ts ∧ rest = [] := by
  induction ts using @program_induction (List Token) _ read generalizing A n with
  | none ts hts =>
    rw [program_of_none read hts] at h
    obtain rfl : ts = [] := List.head?_eq_none_iff.mp hts
    cases h
    exact ⟨.nil, rfl⟩
  | some ts t hts ih =>
    have hne : ts ≠ [] := by rintro rfl; cases hts
    obtain ⟨s, ss, mid, i, m, hs, hss, rfl, rfl⟩ := (program_eq_ok_iff_of_ne_nil hne).mp h
    obtain ⟨hrest, rfl⟩ := ih s mid i hs hss
    obtain ⟨us, rfl, hspelt⟩ := statement_sound hs
    exact ⟨hspelt.append hrest, rfl⟩

theorem spelled_of_result_eq_ok {A : List Stmt} (h : (program read ts).result = .ok A) :
    Program.Spelled read A (program read ts).missing ts := by
  have hA : program read ts = ⟨.ok A, (program read ts).rest, (program read ts).missing⟩ := by
    rw [← h]
  exact (program_sound hA).1

theorem program_complete {A : List Stmt} (h : Program.Spelled read A n ts) :
    program read ts = ⟨.ok A, [], n⟩ := by
  induction h with
  | nil => exact program_nil read
  | @closed s ss w ts us hs hss ih =>
    have hst : statement read (ts ++ Token.semicolon :: us) = ⟨.ok s, us, 0⟩ :=
      statement_eq_ok_iff.mpr ⟨ts, _, rfl, hs, endsExpr_semicolon us, rfl⟩
    exact (program_eq_ok_iff_of_ne_nil (by simp)).mpr
      ⟨s, ss, us, 0, w, hst, ih, rfl, (Nat.zero_add w).symm⟩
  | @bare s ss w ts us hs hss ih =>
    -- the next statement starts with a keyword, which is neither an operator nor a semicolon
    have hsemi : semicolon us = ⟨.ok (), us, 1⟩ := by
      rcases semicolon_cases us with ⟨us', rfl, -⟩ | ⟨-, hc⟩
      · have hk := hss.kind_of_mem_head? _ rfl
        cases hk
      · exact hc
    have hst : statement read (ts ++ us) = ⟨.ok s, us, 1⟩ :=
      statement_eq_ok_iff.mpr ⟨ts, us, rfl, hs, hss.endsExpr, hsemi⟩
    have hne : ts ++ us ≠ [] := by
      obtain ⟨w, us', -, rfl⟩ := hs.head?_eq
      simp
    exact (program_eq_ok_iff_of_ne_nil hne).mpr ⟨s, ss, us, 1, w, hst, ih, rfl, Nat.add_comm w 1⟩

end Parser

theorem Program.Spelled.unique {read : String → Option Float} {A B : List Stmt} {w v : Nat}
    {ts : List Token} (hA : Program.Spelled read A w ts) (hB : Program.Spelled read B v ts) :
    A = B ∧ w = v := by
  have h := (Parser.program_complete hA).symm.trans (Parser.program_complete hB)
  cases h
  exact ⟨rfl, rfl⟩

/-- **Acceptance**: the parser returns the statements `A` and notes `w` missing semicolons exactly
if the tokens are a spelling of `A` in which `w` statements have no semicolon; and the grammar is
unambiguous. -/
theorem Parser.program_returns_iff_spelled (read : String → Option Float) (ts : List Token) :
    (∀ A w, (program read ts).result = .ok A ∧ (program read ts).missing = w ↔
      Program.Spelled read A w ts) ∧
    ∀ A w B v, Program.Spelled read A w ts → Program.Spelled read B v ts → A = B ∧ w = v := by
  refine ⟨fun A w => ⟨?_, fun h => ?_⟩, fun A w B v hA hB => hA.unique hB⟩
  · rintro ⟨hA, rfl⟩
    exact spelled_of_result_eq_ok hA
  · rw [program_complete h]
    exact ⟨rfl, rfl⟩

end Bagay
