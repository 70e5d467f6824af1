import Bagay.Decimal.Numeral
import Bagay.Proofs.Cursor.Suffix
import Bagay.Proofs.Parser.Acceptance
import Bagay.Proofs.Parser.Failure
import Bagay.Proofs.Parser.Lookahead

/-!
# Errors are found as early as possible

When the parser fails with an error of syntax, the tokens before its cursor can still be completed
to a program, and the token at its cursor ends all hope: no program starts with the tokens up to and
including it. The message names that token.

The second half is the lookahead of the routines: whatever follows the token at the cursor, the
parser fails in the same way. The first half is `CompletesOn`: what a routine has taken when it
fails can be completed to tokens on which it succeeds and takes them all. It is proved along the
grammar, where a missing operand is always completed by an empty string, and a success of the whole
is a spelling.

* `CompletesOn.bind`: a sequence that starts with a single token.
* `completable_expr`, `sequential_completable`, `completesOn_statement`: expressions and statements.
* `program_error_cases`, `program_completable`: programs.
* `syntax_error_at_first_hopeless_token`: the result.
-/

namespace Bagay

namespace Parser

variable {α β : Type} {read : String → Option Float} {p q : Parser α} {f : α → Parser β}
  {ts : List Token}

/-- The tokens are a program. -/
def Accepts (read : String → Option Float) (ts : List Token) : Prop :=
  ∃ A, (program read ts).result = .ok A

theorem Accepts.of_spelled {A : List Stmt} {w : Nat} (h : Program.Spelled read A w ts) :
    Accepts read ts :=
  ⟨A, by rw [program_complete h]⟩

/-- The routine succeeds and takes all the tokens. -/
def Finishes (p : Parser α) (ts : List Token) : Prop :=
  ∃ a n, p ts = ⟨.ok a, [], n⟩

/-- If there is an error of syntax on `ts`, what was taken can be completed. -/
def CompletesOn (p : Parser α) (ts : List Token) : Prop :=
  ∀ ⦃taken rest e n⦄, ts = taken ++ rest → p ts = ⟨.error e, rest, n⟩ → e.IsSyntax →
    ∃ c, Finishes p (taken ++ c)

/-- A routine that finishes on some tokens, and can be brought to do so after an error of syntax. -/
structure Completable (p : Parser α) : Prop where
  forward : Forward p
  finishes : ∃ c, Finishes p c
  completesOn : ∀ ts, CompletesOn p ts

/-- A routine that takes one token, whatever follows it, and none on an error of syntax. -/
structure TakesToken (p : Parser α) : Prop where
  forward : Forward p
  exists_taken : ∃ t a, ∀ us, p (t :: us) = ⟨.ok a, us, 0⟩
  of_ok : ∀ ⦃ts a rest n⦄, p ts = ⟨.ok a, rest, n⟩ →
    ∃ t, ts = t :: rest ∧ ∀ us, p (t :: us) = ⟨.ok a, us, 0⟩
  of_error : ∀ ⦃ts e rest n⦄, p ts = ⟨.error e, rest, n⟩ → e.IsSyntax → rest = ts

theorem CompletesOn.cons {t : Token} (hfw : Forward q) (hq : CompletesOn q ts)
    (h : ∀ us, p (t :: us) = q us) : CompletesOn p (t :: ts) := by
  intro taken rest e n hts hp he
  obtain ⟨us, rfl, hus, hr⟩ := exists_taken_of_cons hfw (h ts) hts hp
  obtain ⟨c, a, m, hc⟩ := hq hus hr he
  exact ⟨c, a, m, (h _).trans hc⟩

theorem bind_of_taken {t : Token} {a : α} {us : List Token} (h : p (t :: us) = ⟨.ok a, us, 0⟩) :
    (p >>= f) (t :: us) = f a us := by
  rw [bind_of_ok h, Nat.zero_add]

/-- **Sequences** that start with a single token. -/
theorem CompletesOn.bind (hp : TakesToken p) (hfw : ∀ a, Forward (f a))
    (hfinishes : ∀ a, ∃ c, Finishes (f a) c)
    (hf : ∀ a mid k, p ts = ⟨.ok a, mid, k⟩ → CompletesOn (f a) mid) :
    CompletesOn (p >>= f) ts := by
  rcases hpts : p ts with ⟨e' | a, mid, k⟩
  · intro taken rest e n hts h he
    rw [bind_of_error hpts] at h
    cases h
    obtain rfl : taken = [] := by simpa [hp.of_error hpts he] using hts
    obtain ⟨t, a, ht⟩ := hp.exists_taken
    obtain ⟨c, b, m, hc⟩ := hfinishes a
    exact ⟨t :: c, b, m, (bind_of_taken (ht c)).trans hc⟩
  · obtain ⟨t, rfl, ht⟩ := hp.of_ok hpts
    exact .cons (hfw a) (hf a mid k hpts) fun us => bind_of_taken (ht us)

theorem Completable.bind (hp : TakesToken p) (hf : ∀ a, Completable (f a)) :
    Completable (p >>= f) where
  forward := hp.forward.bind fun a => (hf a).forward
  finishes := by
    obtain ⟨t, a, ht⟩ := hp.exists_taken
    obtain ⟨c, b, m, hc⟩ := (hf a).finishes
    exact ⟨t :: c, b, m, (bind_of_taken (ht c)).trans hc⟩
  completesOn _ := .bind hp (fun a => (hf a).forward) (fun a => (hf a).finishes)
    fun a mid _ _ => (hf a).completesOn mid

/-! ### Single tokens -/

theorem takesToken_single {g : Token → Option (Except ParseError α)}
    {other : Option Token → Except ParseError α} {n : Nat} (hg : ∃ t a, g t = some (.ok a))
    (herror : ∀ t e, g t = some (.error e) → ¬ e.IsSyntax)
    (hother : ∀ found a, other found ≠ .ok a) : TakesToken (single g other n) where
  forward := forward_single g other n
  exists_taken := by
    obtain ⟨t, a, ht⟩ := hg
    exact ⟨t, a, single_cons_of_some ht⟩
  of_ok ts a rest k h := by
    obtain ⟨t, rfl, ht, -⟩ := (single_eq_ok_iff hother).mp h
    exact ⟨t, rfl, single_cons_of_some ht⟩
  of_error ts e rest k h he := by
    rcases single_eq_error h with ⟨rfl, -⟩ | ⟨t, -, ht⟩
    · rfl
    · exact absurd he (herror t e ht)

theorem takesToken_accept {g : Token → Option α} {message : String} (hg : ∃ t a, g t = some a) :
    TakesToken (accept g message) := by
  obtain ⟨t, a, ht⟩ := hg
  exact takesToken_single ⟨t, a, congrArg (Option.map Except.ok) ht⟩ (fun t e h => by simp at h)
    fun _ _ h => by cases h

theorem takesToken_take {q : Pattern} (h : ∃ t, q.accepts t) : TakesToken (take q) := by
  obtain ⟨t, ht⟩ := h
  exact takesToken_accept ⟨t, t, Option.guard_eq_some_iff.mpr ⟨rfl, ht⟩⟩

theorem takesToken_operand : TakesToken (operand read) := by
  refine takesToken_single ⟨_, _, operand?_eq_ok_iff.mpr (.text "")⟩ (fun t e h => ?_)
    fun _ _ h => by cases h
  obtain ⟨text, -, -, rfl⟩ := operand?_eq_error h
  exact id

/-! ### The grammar -/

theorem completesOn_operations (left : Expr) (ts : List Token) :
    CompletesOn (operations read left) ts := by
  induction left, ts using @operations_induction (List Token) _ read with
  | none left ts hop =>
    intro taken rest e n _ h
    rw [operations_of_none read hop] at h
    cases h
  | some left ts op hop ih =>
    rcases ts with _ | ⟨t, ts⟩
    · cases hop
    have hfw : ∀ right, Forward (operations read (.binary op left right) : Parser Expr) :=
      fun right => forward_operations read _
    refine .cons (takesToken_operand.forward.bind hfw) ?_ (operations_cons_of_some read left hop)
    exact .bind takesToken_operand hfw (fun right => ⟨[], _, 0, operations_nil read _⟩) ih

theorem completable_expr : Completable (expr read) :=
  .bind takesToken_operand fun left =>
    ⟨forward_operations read left, ⟨[], left, 0, operations_nil read left⟩,
      completesOn_operations left⟩

/-- A value at the end of the tokens ends a statement. -/
theorem Finishes.ending (h : Finishes (expr read) ts) (k : Expr → Stmt) :
    Finishes (ending read k) ts := by
  obtain ⟨v, n, hv⟩ := h
  refine ⟨k v, n + (1 + 0), ?_⟩
  rw [Parser.ending, bind_of_ok hv]
  rfl

theorem completable_ending (k : Expr → Stmt) : Completable (ending read k) where
  forward := (compositional_forward read).sequential.ending k
  finishes := completable_expr.finishes.imp fun _ h => h.ending k
  completesOn ts _ _ _ _ hts h he :=
    (completable_expr.completesOn ts hts (ending_eq_error h) he).imp fun _ h => h.ending k

variable (read) in
theorem sequential_completable :
    Sequential read (fun α (p _ : Parser α) => TakesToken p) fun α (p _ : Parser α) =>
      Completable p where
  bind := Completable.bind
  variableName := takesToken_take ⟨_, accepts_variableName_iff.mpr ⟨"x", rfl⟩⟩
  operator _ := takesToken_take ⟨_, accepts_operator_iff.mpr rfl⟩
  datatype := takesToken_accept
    ⟨_, _, datatype?_eq_some_iff.mpr ⟨rfl, mem_datatypes_iff.mpr (.inl rfl)⟩⟩
  ending := completable_ending

theorem completable_declaration : Completable (declaration read) :=
  (sequential_completable read).declaration (takesToken_take ⟨_, accepts_word_iff.mpr rfl⟩)

theorem completable_print : Completable (print read) :=
  (sequential_completable read).print (takesToken_take ⟨_, accepts_word_iff.mpr rfl⟩)

theorem finishes_statement : Finishes (statement read) [⟨.keyword, "ipakita"⟩, ⟨.string, ""⟩] :=
  ⟨_, _, statement_eq_ok_iff.mpr
    ⟨_, [], rfl, .print (.operand (.text "")), endsExpr_nil, rfl⟩⟩

theorem completesOn_statement (ts : List Token) : CompletesOn (statement read) ts := by
  intro taken rest e n hts h he
  rcases ts with _ | ⟨t, ts⟩
  · cases h
    cases he
  rcases taken with _ | ⟨t', taken⟩
  · exact ⟨_, finishes_statement⟩
  obtain ⟨rfl, -⟩ := List.cons_eq_cons.mp hts
  by_cases hd : t = ⟨.keyword, "bagay"⟩
  · subst hd
    rw [statement_declare] at h
    obtain ⟨c, s, m, hc⟩ := completable_declaration.completesOn _ hts h he
    exact ⟨c, s, m, (statement_declare _).trans hc⟩
  by_cases hp : t = ⟨.keyword, "ipakita"⟩
  · subst hp
    rw [statement_print] at h
    obtain ⟨c, s, m, hc⟩ := completable_print.completesOn _ hts h he
    exact ⟨c, s, m, (statement_print _).trans hc⟩
  · rw [statement_of_not_keyword hd hp] at h
    obtain rfl : t :: ts = rest := congrArg Outcome.rest h
    have hlen := congrArg List.length hts
    simp only [List.length_append, List.length_cons] at hlen
    omega

/-- A program fails at its first statement, or behind it. -/
theorem program_error_cases {taken rest : List Token} {e : ParseError} {n : Nat}
    (h : program read (taken ++ rest) = ⟨.error e, rest, n⟩) :
    statement read (taken ++ rest) = ⟨.error e, rest, n⟩ ∨
      ∃ s us taken' i m, statement read (taken ++ rest) = ⟨.ok s, taken' ++ rest, i⟩ ∧
        program read (taken' ++ rest) = ⟨.error e, rest, m⟩ ∧ taken = us ++ taken' ∧ n = i + m ∧
          Program.Spelled read [s] i us ∧ taken'.length < taken.length := by
  rcases hts : taken ++ rest with _ | ⟨t, ts⟩
  · rw [hts, program_nil] at h
    cases h
  rw [hts, program_cons, ← hts] at h
  rw [← hts]
  rcases bind_cases h with ⟨e', he', hs⟩ | ⟨s, mid, i, m, hs, hp, rfl⟩
  · cases he'
    exact .inl hs
  · rcases bind_cases hp with ⟨e', he', hss⟩ | ⟨_, _, _, _, _, hpure, -⟩
    · cases he'
      obtain ⟨us, hus, hspelt⟩ := statement_sound hs
      obtain ⟨taken', htaken⟩ := (forward_program read).suffix mid
      rw [hss] at htaken
      subst htaken
      have htaken : taken = us ++ taken' := by
        rw [← List.append_assoc] at hus
        exact List.append_cancel_right hus
      have hlt : taken'.length < taken.length := by
        have := (advances_statement read).length_lt hs
        simp only [List.length_append] at this
        omega
      exact .inr ⟨s, us, taken', i, m, hs, hss, htaken, rfl, hspelt, hlt⟩
    · cases hpure

/-- **Programs**: after an error of syntax, the tokens taken can be completed to a program. -/
theorem program_completable {taken rest : List Token} {e : ParseError} {n : Nat}
    (h : program read (taken ++ rest) = ⟨.error e, rest, n⟩) (he : e.IsSyntax) :
    ∃ c A w, Program.Spelled read A w (taken ++ c) := by
  induction hk : taken.length using Nat.strongRecOn generalizing taken n with
  | ind k ih =>
    rcases program_error_cases h with hs | ⟨s, us, taken', i, m, -, hss, rfl, -, hspelt, hlt⟩
    · obtain ⟨c, s, m, hc⟩ := completesOn_statement _ rfl hs he
      obtain ⟨us, hus, hspelt⟩ := statement_sound hc
      exact ⟨c, [s], m, by rwa [hus, List.append_nil]⟩
    · obtain ⟨c, A, w, hA⟩ := ih _ (hk ▸ hlt) hss rfl
      exact ⟨c, s :: A, i + w, by rw [List.append_assoc]; exact hspelt.append hA⟩

theorem accepts_completion {taken rest : List Token} {e : ParseError} {n : Nat}
    (h : program read (taken ++ rest) = ⟨.error e, rest, n⟩) (he : e.IsSyntax) :
    ∃ c, Accepts read (taken ++ c) := by
  obtain ⟨c, A, w, hA⟩ := program_completable h he
  exact ⟨c, .of_spelled hA⟩

/-- Whatever follows the token at which the parser fails, there is no program. -/
theorem not_accepts_of_error {taken rest : List Token} {t : Token} {e : ParseError} {n : Nat}
    (h : program read (taken ++ t :: rest) = ⟨.error e, t :: rest, n⟩) (c : List Token) :
    ¬ Accepts read (taken ++ t :: c) := by
  rintro ⟨A, hA⟩
  have hsame : program read (taken ++ t :: c) = ⟨.error e, t :: c, n⟩ :=
    looksAhead_program read _ rfl h rfl
  rw [hsame] at hA
  cases hA

end Parser

open Bagay.Parser

/-- **Correct prefixes**: when the parser fails with an error of syntax at the position `p`, the
first `p` tokens can be completed to a program, the first `p + 1` tokens cannot, and the message
ends with the token at `p`, or with the end of the input, and with the file. -/
theorem syntax_error_at_first_hopeless_token (read : String → Option Float) (ts : List Token)
    (file : Option String) {e : ParseError}
    (hfail : ((Cursor.start ts).perform read .program).result = .error e) (he : e.IsSyntax) :
    let p := ((Cursor.start ts).perform read .program).cursor.position
    (∃ c, Accepts read (ts.take p ++ c)) ∧
    (p < ts.length → ∀ c, ¬ Accepts read (ts.take (p + 1) ++ c)) ∧
    (p = ts.length → ¬ Accepts read ts) ∧
    (∀ h : p < ts.length, ∃ m, e.message file =
      m ++ ("'" ++ ts[p].text ++ "' in " ++ file.getD "None")) ∧
    (p = ts.length → ∃ m, e.message file = m ++ ("end of input in " ++ file.getD "None")) := by
  intro p
  obtain ⟨taken, rest, n, rfl, ho, hpos⟩ :=
    Cursor.exists_taken_of_error (Cursor.result_eq_error_iff.mp hfail)
  have hp : p = taken.length := hpos
  have hlast : ¬ Accepts read (taken ++ rest) := by
    rintro ⟨A, hA⟩
    rw [ho] at hA
    cases hA
  have hnames := (blames_program _ ho).names he
  have htake : (taken ++ rest).take p = taken := by rw [hp, List.take_left]
  refine ⟨by rw [htake]; exact accepts_completion ho he, fun hlt c => ?_, fun _ => hlast,
    fun hlt => ?_, fun hend => ?_⟩
  · rcases rest with _ | ⟨t, rest⟩
    · simp [hp] at hlt
    have hsucc : (taken ++ t :: rest).take (p + 1) = taken ++ [t] := by
      rw [hp, List.take_length_add_append, List.take_succ_cons, List.take_zero]
    rw [hsucc, List.append_assoc]
    exact not_accepts_of_error ho c
  · rcases rest with _ | ⟨t, rest⟩
    · simp [hp] at hlt
    have hget : (taken ++ t :: rest)[p] = t := by simp [hp]
    rw [hget]
    exact hnames.message_some file
  · obtain rfl : rest = [] := by
      rw [hp, List.length_append] at hend
      exact List.length_eq_zero_iff.mp (by omega)
    exact hnames.message_none file

/-- A statement without a semicolon, then a token that starts no statement. -/
def bareThenStray : List Token := [⟨.keyword, "ipakita"⟩, ⟨.string, "a"⟩, ⟨.unknown, "?"⟩]

theorem program_bareThenStray (read : String → Option Float) : program read bareThenStray =
    ⟨.error (.unexpected (some ⟨.unknown, "?"⟩)), [⟨.unknown, "?"⟩], 1⟩ := by
  have hs : statement read bareThenStray = ⟨.ok (.print (.text "a")), [⟨.unknown, "?"⟩], 1⟩ := by
    refine statement_eq_ok_iff.mpr ⟨[⟨.keyword, "ipakita"⟩, ⟨.string, "a"⟩], [⟨.unknown, "?"⟩], rfl,
      .print (.operand (.text "a")), fun t ht => ?_, rfl⟩
    cases ht
    rfl
  have hrest : program read ([⟨.unknown, "?"⟩] : List Token) =
      ⟨.error (.unexpected (some ⟨.unknown, "?"⟩)), [⟨.unknown, "?"⟩], 0⟩ := by
    rw [program_cons]
    exact bind_of_error rfl
  rw [bareThenStray] at hs ⊢
  rw [program_cons, bind_of_ok hs, bind_of_error hrest]
  rfl

theorem syntax_error_at_stray_token :
    ((Cursor.start bareThenStray).perform Numeral.read? .program).result =
      .error (.unexpected (some ⟨.unknown, "?"⟩)) ∧
    ((Cursor.start bareThenStray).perform Numeral.read? .program).cursor.position = 2 ∧
    (∃ c, Accepts Numeral.read? (bareThenStray.take 2 ++ c)) ∧
    (∀ c, ¬ Accepts Numeral.read? (bareThenStray.take 3 ++ c)) ∧
    ∃ m, (ParseError.unexpected (some ⟨.unknown, "?"⟩)).message (some "a.hry") =
      m ++ ("'?' in a.hry") := by
  have ho := program_bareThenStray Numeral.read?
  have hr : ((Cursor.start bareThenStray).perform Numeral.read? .program).result =
      .error (.unexpected (some ⟨.unknown, "?"⟩)) := by
    simp only [Cursor.perform_program, Cursor.run, Cursor.rest_start, ho]
    rfl
  have hp : ((Cursor.start bareThenStray).perform Numeral.read? .program).cursor.position = 2 := by
    simp only [Cursor.perform_program, Cursor.run, Cursor.rest_start, ho]
    rfl
  have h := syntax_error_at_first_hopeless_token Numeral.read? bareThenStray (some "a.hry") hr
    trivial
  rw [hp] at h
  obtain ⟨hc, hn, -, hm, -⟩ := h
  exact ⟨hr, hp, hc, hn (by decide), hm (by decide)⟩

end Bagay
