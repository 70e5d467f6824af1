import Bagay.Proofs.Machine.Log
import Bagay.Proofs.Token.Concatenation
import Mathlib.Data.Finset.Card

/-!
# Semicolons are optional

A semicolon that lies outside of the string literals of a source may be replaced by a space: the
statements stay the same, and one more semicolon is noted as missing. Both stages take part. The
lexer reads what stands on the two sides of the place as if each were a source of its own, since
neither a semicolon nor a space continues a token; so exactly one token is lost. The parser does not
need this token, since a statement starts with a keyword, which cannot extend the expression before.

Any number of semicolons is replaced one after the other: a step takes one of them, and leaves the
others where they are.

* `semicolons`, `blankAt`: the places of the semicolons, and the source with spaces at some places.
* `Program.Spelled.drop_semicolon`: the step for the parser; `lex_append_semicolon_append`: for the
  lexer.
* `semicolons_blankAt_singleton`, `exists_lex_blankAt_singleton`: one step, for the places and for
  the tokens; `spelled_blankAt`: all steps.
* `card_semicolons`: the semicolons outside of the string literals are those that become tokens.
* `Program.Spelled.missing_add_count`: each statement has its semicolon, or it is noted as missing.
* `semicolons_are_optional`: the result.
-/

namespace Bagay

/-- The places of the semicolons of a source that lie outside of its string literals, that is,
behind an even number of quotes. -/
def semicolons (s : String) : Finset ℕ :=
  (Finset.range s.toList.length).filter fun i =>
    s.toList[i]? = some ';' ∧ Even ((s.toList.take i).count '"')

/-- The source with a space at each of the places. -/
def blankAt (P : Finset ℕ) (s : String) : String :=
  String.ofList (s.toList.mapIdx fun i c => if i ∈ P then ' ' else c)

/-! ### Tokens -/

theorem Stmt.Spelled.semicolon_not_mem {read : String → Option Float} {s : Stmt} {ts : List Token}
    (h : s.Spelled read ts) : Token.semicolon ∉ ts := by
  have hne : ∀ t ∈ ts, t ≠ Token.semicolon := by
    refine h.forall_mem (fun t e ht => ?_) (fun w => ?_) fun s hs => ?_
    · cases ht <;> simp [Token.semicolon]
    · simp [Token.semicolon]
    · simpa [Token.semicolon] using hs
  exact fun hmem => hne _ hmem rfl

/-- Where a list without `d` is followed up to an occurrence of `d`. -/
theorem exists_append_of_not_mem {d : Token} {xs ys ts us : List Token}
    (h : xs ++ ys = ts ++ d :: us) (hd : d ∉ xs) : ∃ vs, ts = xs ++ vs ∧ ys = vs ++ d :: us := by
  rcases List.append_eq_append_iff.mp h with ⟨vs, hts, hys⟩ | ⟨vs, hxs, hus⟩
  · exact ⟨vs, hts, hys⟩
  · rcases vs with _ | ⟨v, vs⟩
    · exact ⟨[], by simpa using hxs.symm, by simpa using hus.symm⟩
    · cases hus
      exact absurd (by simp [hxs]) hd

/-- **The parser** does not need a semicolon. -/
theorem Program.Spelled.drop_semicolon {read : String → Option Float} {A : List Stmt} {w : Nat}
    {ts us : List Token} (h : Program.Spelled read A w (ts ++ Token.semicolon :: us)) :
    Program.Spelled read A (w + 1) (ts ++ us) := by
  generalize hvs : ts ++ Token.semicolon :: us = vs at h
  induction h generalizing ts with
  | nil => simp at hvs
  | closed hs hss ih =>
    obtain ⟨vs, rfl, hus⟩ := exists_append_of_not_mem hvs.symm hs.semicolon_not_mem
    rcases vs with _ | ⟨v, vs⟩
    · -- it is the semicolon of this statement
      cases hus
      rw [List.append_nil]
      exact .bare hs hss
    · cases hus
      rw [List.append_assoc, List.cons_append]
      exact .closed hs (ih rfl)
  | bare hs hss ih =>
    obtain ⟨vs, rfl, rfl⟩ := exists_append_of_not_mem hvs.symm hs.semicolon_not_mem
    rw [List.append_assoc]
    exact .bare hs (ih rfl)

/-- Each statement has its semicolon, or it is noted as missing. -/
theorem Program.Spelled.missing_add_count {read : String → Option Float} {A : List Stmt} {w : Nat}
    {ts : List Token} (h : Program.Spelled read A w ts) :
    w + ts.count Token.semicolon = A.length := by
  induction h with
  | nil => rfl
  | closed hs hss ih =>
    have hzero := List.count_eq_zero.mpr hs.semicolon_not_mem
    rw [List.count_append, List.count_cons_self, List.length_cons, hzero]
    omega
  | bare hs hss ih =>
    have hzero := List.count_eq_zero.mpr hs.semicolon_not_mem
    rw [List.count_append, List.length_cons, hzero]
    omega

/-- **The lexer** reads both sides of a semicolon on their own. -/
theorem lex_append_semicolon_append {s : String} (hs : Even (quotes s)) (t : String) :
    Token.lex (s ++ ";" ++ t) = Token.lex s ++ Token.semicolon :: Token.lex t := by
  have hclosed := Lexeme.any_isOpen_cut_eq_false_iff.mpr hs
  have hsep : Separates (";".toList ++ t.toList) := separates_cons (.inr rfl) t.toList
  have hmark : (Lexeme.mark ';').Stands t.toList := .inl rfl
  have hsolids : Lexeme.solids (";".toList ++ t.toList) = .mark ';' :: Lexeme.solids t.toList :=
    Lexeme.solids_append hmark rfl
  simp only [Lexeme.lex_eq_filterMap_solids, String.toList_append, List.append_assoc]
  rw [Lexeme.solids_append_of_separates hclosed hsep, hsolids, List.filterMap_append]
  rfl

/-! ### Places -/

section Places

variable {s : String} {i j : ℕ} {P : Finset ℕ}

theorem mem_semicolons_iff : i ∈ semicolons s ↔
    s.toList[i]? = some ';' ∧ Even ((s.toList.take i).count '"') := by
  simp only [semicolons, Finset.mem_filter, Finset.mem_range, and_iff_right_iff_imp]
  exact fun h => (List.getElem?_eq_some_iff.mp h.1).1

theorem blankAt_empty (s : String) : blankAt ∅ s = s := by
  rw [← String.toList_inj, blankAt, String.toList_ofList]
  exact List.ext_getElem? fun j => by simp

theorem blankAt_insert (i : ℕ) (P : Finset ℕ) (s : String) :
    blankAt (insert i P) s = blankAt P (blankAt {i} s) := by
  simp only [blankAt, String.toList_ofList, List.mapIdx_mapIdx]
  congr 2
  funext j c
  by_cases hi : j = i
  · simp [hi]
  · simp [hi]

theorem toList_blankAt_singleton (i : ℕ) (s : String) :
    (blankAt {i} s).toList = s.toList.set i ' ' := by
  refine List.ext_getElem? fun j => ?_
  rw [blankAt, String.toList_ofList, List.getElem?_mapIdx, List.getElem?_set]
  by_cases hij : i = j
  · subst hij
    by_cases hi : i < s.toList.length
    · simp [hi]
    · simp [hi]
  · simp [hij, Ne.symm hij]

theorem exists_split_of_mem (h : i ∈ semicolons s) : ∃ b a : String,
    Even (quotes b) ∧ s = b ++ ";" ++ a ∧ blankAt {i} s = b ++ " " ++ a := by
  obtain ⟨hi, heven⟩ := mem_semicolons_iff.mp h
  obtain ⟨hlt, hget⟩ := List.getElem?_eq_some_iff.mp hi
  have hset : ∀ c, s.toList.set i c = s.toList.take i ++ c :: s.toList.drop (i + 1) := by
    intro c
    rw [List.set_eq_take_append_cons_drop, if_pos hlt]
  have hs : s.toList = s.toList.take i ++ ';' :: s.toList.drop (i + 1) := by
    rw [← hset, ← hget, List.set_getElem_self]
  refine ⟨String.ofList (s.toList.take i), String.ofList (s.toList.drop (i + 1)),
    by rwa [quotes, String.toList_ofList], ?_, ?_⟩
  · rw [← String.toList_inj]
    simpa using hs
  · rw [← String.toList_inj, toList_blankAt_singleton, hset]
    simp

theorem count_quote_set {cs : List Char} (h : cs[i]? ≠ some '"') :
    (cs.set i ' ').count '"' = cs.count '"' := by
  induction cs generalizing i with
  | nil => rfl
  | cons c cs ih =>
    cases i with
    | zero =>
      have hc : c ≠ '"' := by simpa using h
      simp [hc]
    | succ i =>
      rw [List.set_cons_succ, List.count_cons, List.count_cons, ih (by simpa using h)]

/-- A space in the place of one semicolon leaves the others where they are. -/
theorem semicolons_blankAt_singleton (hi : i ∈ semicolons s) :
    semicolons (blankAt {i} s) = (semicolons s).erase i := by
  obtain ⟨hsemi, -⟩ := mem_semicolons_iff.mp hi
  ext j
  rw [Finset.mem_erase, mem_semicolons_iff, mem_semicolons_iff, toList_blankAt_singleton]
  by_cases hij : j = i
  · subst hij
    have hlt := (List.getElem?_eq_some_iff.mp hsemi).1
    simp [List.getElem?_set_self hlt]
  have hquote : (s.toList.take j)[i]? ≠ some '"' := by
    rw [List.getElem?_take]
    split
    · rw [hsemi]
      decide
    · simp
  rw [List.take_set, count_quote_set hquote, List.getElem?_set_ne (Ne.symm hij),
    and_iff_right hij]

theorem semicolons_nonempty_of_mem_lex (h : Token.semicolon ∈ Token.lex s) :
    (semicolons s).Nonempty := by
  obtain ⟨l, hl, ht⟩ := List.mem_filterMap.mp h
  obtain rfl : l = .mark ';' := Lexeme.eq_mark_of_token? ht rfl
  obtain ⟨before, after, hs, heven⟩ := Lexeme.exists_split_of_mem_cut hl
  refine ⟨before.length, mem_semicolons_iff.mpr ⟨?_, ?_⟩⟩
  · simp [hs, Lexeme.spelling]
  · rwa [hs, List.take_left]

/-- **One step** takes one semicolon token. -/
theorem exists_lex_blankAt_singleton (h : i ∈ semicolons s) : ∃ ts us,
    Token.lex s = ts ++ Token.semicolon :: us ∧ Token.lex (blankAt {i} s) = ts ++ us := by
  obtain ⟨b, a, hb, hs, hblank⟩ := exists_split_of_mem h
  refine ⟨Token.lex b, Token.lex a, ?_, ?_⟩
  · rw [hs, lex_append_semicolon_append hb]
  · rw [hblank, lex_append_spacing_append hb (by decide) (by decide)]

theorem card_semicolons (s : String) :
    (semicolons s).card = (Token.lex s).count Token.semicolon := by
  induction hk : (semicolons s).card generalizing s with
  | zero =>
    symm
    rw [List.count_eq_zero]
    intro hmem
    have hpos := (semicolons_nonempty_of_mem_lex hmem).card_pos
    omega
  | succ k ih =>
    obtain ⟨i, hi⟩ := Finset.card_pos.mp (by omega : 0 < (semicolons s).card)
    obtain ⟨ts, us, hlex, hblank⟩ := exists_lex_blankAt_singleton hi
    have hcard : (semicolons (blankAt {i} s)).card = k := by
      rw [semicolons_blankAt_singleton hi, Finset.card_erase_of_mem hi, hk, Nat.add_sub_cancel]
    have hcount := ih (blankAt {i} s) hcard
    rw [hblank, List.count_append] at hcount
    rw [hlex, List.count_append, List.count_cons_self]
    omega

end Places

/-- **All steps**: with spaces in the place of some semicolons, the statements stay the same, and as
many more semicolons are missing. -/
theorem spelled_blankAt {read : String → Option Float} {s : String} {A : List Stmt} {w : Nat}
    {P : Finset ℕ} (hP : P ⊆ semicolons s) (h : Program.Spelled read A w (Token.lex s)) :
    Program.Spelled read A (w + P.card) (Token.lex (blankAt P s)) := by
  induction P using Finset.induction_on generalizing s w with
  | empty => simpa [blankAt_empty] using h
  | insert i P hi ih =>
    obtain ⟨hmem, hP⟩ := Finset.insert_subset_iff.mp hP
    have hstep : Program.Spelled read A (w + 1) (Token.lex (blankAt {i} s)) := by
      obtain ⟨ts, us, hlex, hblank⟩ := exists_lex_blankAt_singleton hmem
      rw [hlex] at h
      rw [hblank]
      exact h.drop_semicolon
    have hrest : P ⊆ semicolons (blankAt {i} s) := by
      rw [semicolons_blankAt_singleton hmem]
      exact Finset.subset_erase.mpr ⟨hP, hi⟩
    rw [blankAt_insert, Finset.card_insert_of_notMem hi, Nat.add_comm P.card 1, ← Nat.add_assoc]
    exact ih hrest hstep

/-- **Semicolons**: let a source parse. With spaces in the place of any of the semicolons that lie
outside of its string literals, it has the same statements, and runs with the same result, bindings
and output on every machine; and as many more semicolons are missing as were replaced. These
semicolons are as many as the semicolon tokens, and their number and the number of the missing ones
make up the number of statements. -/
theorem semicolons_are_optional {s : String} {A : List Stmt} (h : (parsed s).result = .ok A) :
    (∀ P ⊆ semicolons s, (parsed (blankAt P s)).result = .ok A ∧
      (parsed (blankAt P s)).missing = (parsed s).missing + P.card ∧
      ∀ (m : Machine) (verbose : Bool),
        (m.run verbose (blankAt P s)).result = (m.run verbose s).result ∧
        (m.run verbose (blankAt P s)).machine = (m.run verbose s).machine ∧
        (m.run verbose (blankAt P s)).output = (m.run verbose s).output) ∧
    (semicolons s).card = (Token.lex s).count Token.semicolon ∧
    (parsed s).missing + (Token.lex s).count Token.semicolon = A.length := by
  have hspelled := Parser.spelled_of_result_eq_ok h
  refine ⟨fun P hP => ?_, card_semicolons s, hspelled.missing_add_count⟩
  have hblank := Parser.program_complete (spelled_blankAt hP hspelled)
  have hA : (parsed (blankAt P s)).result = .ok A := by rw [parsed, hblank]
  refine ⟨hA, by rw [parsed, hblank], fun m verbose => ?_⟩
  rw [Machine.run_of_ok hA, Machine.run_of_ok h]
  exact ⟨rfl, rfl, rfl⟩

/-- Three statements that touch each other, with two semicolons behind them and a third one in a
string literal. -/
def packedStatements : String := "bagay x -> teksto = \"a;\";ipakita x;ipakita \"b\""

theorem packedStatements_without_semicolons :
    (parsed packedStatements).result = .ok
      [.declare "x" "teksto" (.text "a;"), .print (.name "x"), .print (.text "b")] ∧
    semicolons packedStatements = {24, 34} ∧
    blankAt {24, 34} packedStatements =
      "bagay x -> teksto = \"a;\" ipakita x ipakita \"b\"" ∧
    (parsed (blankAt {24, 34} packedStatements)).result = .ok
      [.declare "x" "teksto" (.text "a;"), .print (.name "x"), .print (.text "b")] ∧
    (parsed (blankAt {24, 34} packedStatements)).missing = 3 := by
  have hparsed : (parsed packedStatements).result = .ok
      [.declare "x" "teksto" (.text "a;"), .print (.name "x"), .print (.text "b")] := by
    decide +kernel
  have hplaces : semicolons packedStatements = {24, 34} := by decide +kernel
  have hmissing : (parsed packedStatements).missing = 1 := by decide +kernel
  obtain ⟨hblank, -⟩ := semicolons_are_optional hparsed
  obtain ⟨hsame, hmore, -⟩ := hblank {24, 34} hplaces.superset
  refine ⟨hparsed, hplaces, by decide +kernel, hsame, ?_⟩
  rw [hmore, hmissing]
  rfl

end Bagay
