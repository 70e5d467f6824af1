import Bagay.Record
import Bagay.Proofs.Parser.Viability
import Mathlib.Tactic.Common

/-!
# What a failed parse has noted

The parser notes a missing semicolon when it has read the expression in front of it, before it looks
at what follows. So a parse that fails has notes of its own, and they are those of the statements
that were completed before the failure, whether the statement after them broke off or did not even
start. Where this one starts can be seen in the tokens: at the last word before the cursor that
opens a statement.

A routine inside of a statement that fails has noted nothing and taken no such word, and if the
tokens ended where it stopped, it would fail just the same. `BreaksOff p ts` says so of the routine
`p` on the tokens `ts`.

* `BreaksOff.cons`, `BreaksOff.bind`: sequences that start with a single token.
* `inner_expr`, `sequential_inner`, `statement_eq_error`: expressions and statements.
* `program_eq_error`: programs; what was taken is a program, or a program and a broken-off
  statement, and then no program.
* `failed_parse_notes_completed_statements`: the result.
-/

namespace Bagay

/-- The token is a word that opens a statement. -/
def Token.Opens (t : Token) : Prop := t = ⟨.keyword, "bagay"⟩ ∨ t = ⟨.keyword, "ipakita"⟩

instance : DecidablePred Token.Opens := fun _ => inferInstanceAs (Decidable (_ ∨ _))

theorem Token.not_opens_of_ne {k : Token.Kind} (h : k ≠ .keyword) (text : String) :
    ¬ Token.Opens ⟨k, text⟩ := by
  rintro (heq | heq) <;> exact h (congrArg Token.kind heq)

theorem Token.not_opens_of_mem_datatypes {type : String} (h : type ∈ Token.datatypes) :
    ¬ Token.Opens ⟨.keyword, type⟩ := by
  rcases Parser.mem_datatypes_iff.mp h with rfl | rfl <;> decide

theorem Token.IsOperand.not_opens {read : String → Option Float} {t : Token} {e : Expr}
    (h : t.IsOperand read e) : ¬ t.Opens := by
  cases h <;> exact not_opens_of_ne (by decide) _

namespace Parser

variable {α β : Type} {read : String → Option Float} {p q : Parser α} {f : α → Parser β}
  {ts taken rest : List Token} {t : Token} {e : ParseError} {n : Nat}

/-- If the routine fails on `ts`, it has noted nothing and taken no word that opens a statement, and
it fails as well if the tokens end where it stopped. -/
def BreaksOff (p : Parser α) (ts : List Token) : Prop :=
  ∀ ⦃taken rest e n⦄, ts = taken ++ rest → p ts = ⟨.error e, rest, n⟩ →
    n = 0 ∧ (∀ t ∈ taken, ¬ t.Opens) ∧ ∃ e', p taken = ⟨.error e', [], 0⟩

theorem BreaksOff.cons (ht : ¬ t.Opens) (hfw : Forward q) (hq : BreaksOff q ts)
    (h : ∀ us, p (t :: us) = q us) : BreaksOff p (t :: ts) := by
  intro taken rest e n hts hp
  obtain ⟨us, rfl, hus, hr⟩ := exists_taken_of_cons hfw (h ts) hts hp
  obtain ⟨hn, hopens, e', he'⟩ := hq hus hr
  exact ⟨hn, List.forall_mem_cons.mpr ⟨ht, hopens⟩, e', (h us).trans he'⟩

/-- A routine inside of a statement. -/
structure Inner (p : Parser α) : Prop where
  forward : Forward p
  breaksOff : ∀ ts, BreaksOff p ts

/-- A routine for one token inside of a statement. -/
structure TakesInner (p : Parser α) : Prop extends TakesToken p, Inner p where
  not_opens : ∀ ⦃t us a n⦄, p (t :: us) = ⟨.ok a, us, n⟩ → ¬ t.Opens

/-- **Sequences** that start with a single token. -/
theorem BreaksOff.bind (hp : TakesInner p) (hfw : ∀ a, Forward (f a))
    (hf : ∀ a mid k, p ts = ⟨.ok a, mid, k⟩ → BreaksOff (f a) mid) : BreaksOff (p >>= f) ts := by
  rcases hpts : p ts with ⟨e | a, mid, k⟩
  · intro taken rest e' n hts h
    rw [bind_of_error hpts] at h
    cases h
    obtain ⟨hn, hopens, e', he'⟩ := hp.breaksOff ts hts hpts
    exact ⟨hn, hopens, e', bind_of_error he'⟩
  · obtain ⟨t, rfl, ht⟩ := hp.of_ok hpts
    exact .cons (hp.not_opens hpts) (hfw a) (hf a mid k hpts) fun us => bind_of_taken (ht us)

theorem TakesInner.bind (hp : TakesInner p) (hf : ∀ a, Inner (f a)) : Inner (p >>= f) where
  forward := hp.forward.bind fun a => (hf a).forward
  breaksOff _ := .bind hp (fun a => (hf a).forward) fun a mid _ _ => (hf a).breaksOff mid

/-! ### Single tokens -/

/-- A token that is not taken is not there at the end of the input either, and a number that is
taken and cannot be read cannot be read there. -/
theorem breaksOff_single {g : Token → Option (Except ParseError α)}
    {other : Option Token → Except ParseError α} (hnone : ∃ e, other none = .error e)
    (hg : ∀ t r, g t = some r → ¬ t.Opens) (ts : List Token) :
    BreaksOff (single g other 0) ts := by
  intro taken rest e n hts h
  have hn : n = 0 := by
    rcases single_cases g other 0 ts with ⟨t, r, -, -, hs⟩ | ⟨-, hs⟩ <;>
      exact (congrArg Outcome.missing (hs.symm.trans h)).symm
  rcases single_eq_error h with ⟨rfl, -⟩ | ⟨t, rfl, ht⟩
  · obtain rfl : taken = [] := by simpa using hts
    obtain ⟨e', he'⟩ := hnone
    exact ⟨hn, by simp, e', congrArg (Outcome.mk · [] 0) he'⟩
  · obtain rfl : [t] = taken := List.append_cancel_right hts
    exact ⟨hn, by simpa using hg t _ ht, e, single_cons_of_some ht []⟩

theorem TakesToken.inner {g : Token → Option (Except ParseError α)}
    {other : Option Token → Except ParseError α} (h : TakesToken (single g other 0 : Parser α))
    (hother : ∀ found a, other found ≠ .ok a) (hg : ∀ t r, g t = some r → ¬ t.Opens) :
    TakesInner (single g other 0 : Parser α) where
  toTakesToken := h
  breaksOff := by
    refine breaksOff_single ?_ hg
    rcases hnone : other none with e | a
    · exact ⟨e, rfl⟩
    · exact absurd hnone (hother none a)
  not_opens t us a n hok := by
    obtain ⟨t', htus, ht', -⟩ := (single_eq_ok_iff hother).mp hok
    obtain ⟨rfl, -⟩ := List.cons_eq_cons.mp htus
    exact hg t _ ht'

theorem takesInner_accept {g : Token → Option α} {message : String}
    (h : TakesToken (accept g message : Parser α)) (hg : ∀ t a, g t = some a → ¬ t.Opens) :
    TakesInner (accept g message : Parser α) := by
  refine TakesToken.inner h (fun _ _ h => by cases h) fun t r hr => ?_
  obtain ⟨a, ha, -⟩ := Option.map_eq_some_iff.mp hr
  exact hg t a ha

theorem takesInner_take {q : Pattern} (h : TakesToken (take q))
    (hq : ∀ t, q.accepts t → ¬ t.Opens) : TakesInner (take q) :=
  takesInner_accept h fun t _ ht => hq t (Option.guard_eq_some_iff.mp ht).2

theorem takesInner_operand : TakesInner (operand read) := by
  refine TakesToken.inner takesToken_operand (fun _ _ h => by cases h) fun t r hr => ?_
  rcases r with e | v
  · obtain ⟨text, rfl, -⟩ := operand?_eq_error hr
    exact Token.not_opens_of_ne (by decide) text
  · exact (operand?_eq_ok_iff.mp hr).not_opens

/-! ### Expressions and statements -/

theorem breaksOff_operations (left : Expr) (ts : List Token) :
    BreaksOff (operations read left) ts := by
  induction left, ts using @operations_induction (List Token) _ read with
  | none left ts hop =>
    intro taken rest e n _ h
    rw [operations_of_none read hop] at h
    cases h
  | some left ts op hop ih =>
    obtain ⟨us, rfl⟩ := operator?_eq_some_iff.mp hop
    have hfw : ∀ right, Forward (operations read (.binary op left right) : Parser Expr) :=
      fun right => forward_operations read _
    have ht : ¬ op.token.Opens := Token.not_opens_of_ne (by decide) op.symbol
    refine .cons ht (takesInner_operand.toTakesToken.forward.bind hfw) ?_
      (operations_cons_of_some read left (Op.ofToken?_eq_some_iff.mpr rfl))
    exact .bind takesInner_operand hfw ih

theorem inner_expr : Inner (expr read) :=
  takesInner_operand.bind fun left => ⟨forward_operations read left, breaksOff_operations left⟩

theorem inner_ending (k : Expr → Stmt) : Inner (ending read k) := by
  refine ⟨(completable_ending k).forward, fun ts taken rest e n hts h => ?_⟩
  obtain ⟨hn, hopens, e', he'⟩ := inner_expr.breaksOff ts hts (ending_eq_error h)
  exact ⟨hn, hopens, e', bind_of_error he'⟩

theorem sequential_inner :
    Sequential read (fun α (p _ : Parser α) => TakesInner p) fun α (p _ : Parser α) =>
      Inner p where
  bind := TakesInner.bind
  variableName := takesInner_take (sequential_completable read).variableName fun t ht => by
    obtain ⟨name, rfl⟩ := accepts_variableName_iff.mp ht
    exact Token.not_opens_of_ne (by decide) name
  operator symbol := takesInner_take ((sequential_completable read).operator symbol) fun t ht => by
    obtain rfl := accepts_operator_iff.mp ht
    exact Token.not_opens_of_ne (by decide) symbol
  datatype := takesInner_accept (sequential_completable read).datatype fun t type ht => by
    obtain ⟨rfl, htype⟩ := datatype?_eq_some_iff.mp ht
    exact Token.not_opens_of_mem_datatypes htype
  ending := inner_ending

theorem statement_declare_eq_tail (us : List Token) :
    statement read (⟨.keyword, "bagay"⟩ :: us) = declarationTail read us :=
  (statement_declare us).trans (bind_of_taken (take_eq_ok_iff.mpr ⟨rfl, by decide, rfl⟩))

theorem statement_print_eq_ending (us : List Token) :
    statement read (⟨.keyword, "ipakita"⟩ :: us) = ending read .print us :=
  (statement_print us).trans (bind_of_taken (take_eq_ok_iff.mpr ⟨rfl, by decide, rfl⟩))

/-- **Statements** that fail: nothing is taken, or a word that opens a statement and no other. -/
theorem statement_eq_error (h : statement read (taken ++ rest) = ⟨.error e, rest, n⟩) :
    n = 0 ∧ (taken = [] ∨ ∃ t us, taken = t :: us ∧ t.Opens ∧ (∀ u ∈ us, ¬ u.Opens) ∧
      ∃ e', statement read taken = ⟨.error e', [], 0⟩) := by
  rcases hts : taken ++ rest with _ | ⟨t, ts⟩
  · rw [hts] at h
    cases h
    exact ⟨rfl, .inl (List.append_eq_nil_iff.mp hts).1⟩
  rw [hts] at h
  -- behind the word that opens the statement, what is inside of it breaks off
  have hinner : ∀ {p : Parser Stmt}, Inner p → (∀ us, statement read (t :: us) = p us) →
      t.Opens → n = 0 ∧ ∃ us, taken = t :: us ∧ (∀ u ∈ us, ¬ u.Opens) ∧
        ∃ e', statement read taken = ⟨.error e', [], 0⟩ := by
    intro p hp heq ht
    obtain ⟨us, rfl, hus, hr⟩ := exists_taken_of_cons hp.forward (heq ts) hts.symm h
    obtain ⟨hn, hopens, e', he'⟩ := hp.breaksOff ts hus hr
    exact ⟨hn, us, rfl, hopens, e', (heq us).trans he'⟩
  by_cases hd : t = ⟨.keyword, "bagay"⟩
  · subst hd
    obtain ⟨hn, us, rfl, hus, he'⟩ :=
      hinner sequential_inner.declarationTail statement_declare_eq_tail (.inl rfl)
    exact ⟨hn, .inr ⟨_, us, rfl, .inl rfl, hus, he'⟩⟩
  by_cases hp : t = ⟨.keyword, "ipakita"⟩
  · subst hp
    obtain ⟨hn, us, rfl, hus, he'⟩ :=
      hinner (sequential_inner.ending .print) statement_print_eq_ending (.inr rfl)
    exact ⟨hn, .inr ⟨_, us, rfl, .inr rfl, hus, he'⟩⟩
  · rw [statement_of_not_keyword hd hp] at h
    cases h
    exact ⟨rfl, .inl (by simpa using hts)⟩

/-! ### Programs -/

theorem Accepts.of_statement {s : Stmt} {mid : List Token} (h : Accepts read ts)
    (hs : statement read ts = ⟨.ok s, mid, n⟩) : Accepts read mid := by
  obtain ⟨A, hA⟩ := h
  have hne : ts ≠ [] := by rintro rfl; cases hs
  have hA' : program read ts = ⟨.ok A, (program read ts).rest, (program read ts).missing⟩ := by
    rw [← hA]
  obtain ⟨s', ss, mid', i, m, hs', hss, -⟩ := (program_eq_ok_iff_of_ne_nil hne).mp hA'
  rw [hs] at hs'
  cases hs'
  exact ⟨ss, by rw [hss]⟩

/-- **Programs** that fail: what was taken is a program with the notes made, or such a program and a
statement that broke off, and then no program. -/
theorem program_eq_error (h : program read (taken ++ rest) = ⟨.error e, rest, n⟩) :
    ∃ done part A, taken = done ++ part ∧ Program.Spelled read A n done ∧
      (part = [] ∨ (∃ t us, part = t :: us ∧ t.Opens ∧ ∀ u ∈ us, ¬ u.Opens) ∧
        ¬ Accepts read taken) := by
  induction hk : taken.length using Nat.strongRecOn generalizing taken n with
  | ind k ih =>
    rcases program_error_cases h with hs | ⟨s, us, taken', i, m, hs, hss, rfl, rfl, hspelt, hlt⟩
    · obtain ⟨rfl, rfl | ⟨u, us, rfl, hu, hus, e', he'⟩⟩ := statement_eq_error hs
      · exact ⟨[], [], [], rfl, .nil, .inl rfl⟩
      · refine ⟨[], u :: us, [], rfl, .nil, .inr ⟨⟨u, us, rfl, hu, hus⟩, ?_⟩⟩
        rintro ⟨A, hA⟩
        rw [program_cons, bind_of_error he'] at hA
        cases hA
    · obtain ⟨done, part, A, rfl, hA, hpart⟩ := ih _ (hk ▸ hlt) hss rfl
      refine ⟨us ++ done, part, s :: A, by simp, hspelt.append hA, hpart.imp_right ?_⟩
      rintro ⟨⟨u, vs, rfl, hu, hvs⟩, hnot⟩
      refine ⟨⟨u, vs, rfl, hu, hvs⟩, fun haccepts => hnot ?_⟩
      -- the first statement does not see the end of what was taken
      have hhead : (done ++ u :: vs).head? = (done ++ u :: vs ++ rest).head? := by
        cases done <;> rfl
      exact haccepts.of_statement ((singleLookahead_statement read).looksAhead _
        (List.append_assoc ..) hs hhead)

end Parser

open Bagay.Parser

/-- The tokens after the one at a place, up to the end of what was taken. -/
theorem mem_of_getElem?_between {done us rest : List Token} {t u : Token} {i : Nat}
    (h : (done ++ t :: us ++ rest)[i]? = some u) (hlt : done.length < i)
    (hle : i < (done ++ t :: us).length) : u ∈ us := by
  obtain ⟨j, rfl⟩ : ∃ j, i = done.length + (j + 1) := ⟨i - done.length - 1, by omega⟩
  rw [List.getElem?_append_left hle, List.getElem?_append_right (by omega),
    Nat.add_sub_cancel_left, List.getElem?_cons_succ] at h
  exact List.mem_of_getElem? h

/-- **Notes of a failed parse**: let `p` be the cursor at the failure. If the tokens before it are a
program, the notes made are those that the parser makes for this program. Otherwise there is a word
that opens a statement before the cursor, and with `q` the place of the last one, the tokens before
`q` are a program, and the notes made are those that the parser makes for it. -/
theorem failed_parse_notes_completed_statements (read : String → Option Float) (ts : List Token)
    {e : ParseError} (hfail : (program read ts).result = .error e) :
    let p := ((Cursor.start ts).perform read .program).cursor.position
    (Accepts read (ts.take p) → (program read ts).records = (program read (ts.take p)).records) ∧
    (¬ Accepts read (ts.take p) → ∃ q t, q < p ∧ ts[q]? = some t ∧ t.Opens ∧
      (∀ i u, q < i → i < p → ts[i]? = some u → ¬ u.Opens) ∧ Accepts read (ts.take q) ∧
        (program read ts).records = (program read (ts.take q)).records) := by
  intro p
  obtain ⟨taken, rest, n, rfl, ho, hpos⟩ := Cursor.exists_taken_of_error hfail
  have hp : p = taken.length := hpos
  obtain ⟨done, part, A, rfl, hA, hpart⟩ := program_eq_error ho
  have hdone : (program read (done ++ part ++ rest)).records = (program read done).records := by
    rw [ho, program_complete hA]
    rfl
  have htake : (done ++ part ++ rest).take p = done ++ part := by rw [hp, List.take_left]
  rw [htake]
  rcases hpart with rfl | ⟨⟨t, us, rfl, ht, hus⟩, hnot⟩
  · rw [List.append_nil]
    exact ⟨fun _ => by simpa using hdone, fun hnot => absurd (.of_spelled hA) hnot⟩
  · refine ⟨fun haccepts => absurd haccepts hnot, fun _ => ?_⟩
    have hq : (done ++ t :: us ++ rest).take done.length = done := by
      rw [List.append_assoc, List.take_left]
    refine ⟨done.length, t, ?_, by simp, ht, fun i u hlt hle hi => ?_, ?_, ?_⟩
    · rw [hp]
      simp
    · exact hus u (mem_of_getElem?_between hi hlt (hp ▸ hle))
    · rw [hq]
      exact .of_spelled hA
    · rw [hq]
      exact hdone

/-- A statement without a semicolon, one with it, and a declaration that breaks off at a number that
cannot be read. -/
def bareThenBadNumber : List Token :=
  [⟨.keyword, "ipakita"⟩, ⟨.string, "a"⟩, ⟨.keyword, "ipakita"⟩, ⟨.string, "b"⟩, ⟨.operator, ";"⟩,
    ⟨.keyword, "bagay"⟩, ⟨.identifier, "x"⟩, ⟨.operator, "->"⟩, ⟨.keyword, "bilang"⟩,
    ⟨.operator, "="⟩, ⟨.number, "1e"⟩, ⟨.operator, "+"⟩]

theorem bareThenBadNumber_notes_first_statement :
    (program Numeral.read? bareThenBadNumber).result = .error (.badNumber "1e") ∧
    ((Cursor.start bareThenBadNumber).perform Numeral.read? .program).cursor.position = 11 ∧
    ¬ Accepts Numeral.read? (bareThenBadNumber.take 11) ∧
    Accepts Numeral.read? (bareThenBadNumber.take 5) ∧
    (program Numeral.read? bareThenBadNumber).records =
      (program Numeral.read? (bareThenBadNumber.take 5)).records := by
  have hfail : (program Numeral.read? bareThenBadNumber).result = .error (.badNumber "1e") := by
    decide +kernel
  have hp : ((Cursor.start bareThenBadNumber).perform Numeral.read? .program).cursor.position =
      11 := by
    decide +kernel
  have hnot : ¬ Accepts Numeral.read? (bareThenBadNumber.take 11) := by
    have herror : (program Numeral.read? (bareThenBadNumber.take 11)).result =
        .error (.badNumber "1e") := by
      decide +kernel
    rintro ⟨A, hA⟩
    rw [herror] at hA
    cases hA
  have h := failed_parse_notes_completed_statements Numeral.read? bareThenBadNumber hfail
  rw [hp] at h
  obtain ⟨q, t, hlt, ht, hopens, hlast, haccepts, hrecords⟩ := h.2 hnot
  -- the last word that opens a statement is the one at 5
  obtain rfl : q = 5 := by
    rcases Nat.lt_trichotomy q 5 with hq | hq | hq
    · exact absurd (.inl rfl) (hlast 5 ⟨.keyword, "bagay"⟩ hq (by decide) rfl)
    · exact hq
    · have hplain : ∀ i < 11, 5 < i → ∀ u ∈ bareThenBadNumber[i]?, ¬ u.Opens := by decide
      exact absurd hopens (hplain q hlt hq t ht)
  exact ⟨hfail, hp, hnot, haccepts, hrecords⟩

end Bagay
