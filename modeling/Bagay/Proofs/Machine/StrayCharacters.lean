import Bagay.Proofs.Machine.Failures
import Bagay.Proofs.Token.Concatenation

/-!
# Stray characters are rejected

The lexer never fails: a character that it has no use for becomes a token of its own kind. That the
language has no such characters is the business of the parser, which takes none of these tokens, at
no place of the grammar and whatever is optional there. So a source with a stray character outside
of its string literals does not parse, and nothing of it is executed.

* `HasStray`: a source has such a character. The end of an arrow is none.
* `exists_unknown_of_hasStray`: then it has a token of the unknown kind, since neither what stands
  before the character nor what follows it can be continued by it.
* `Program.Spelled.kind_ne_unknown`: no program has such a token; `Parser.length_le_findIdx`: the
  parser takes none before it fails.
* `stray_characters_are_rejected`: the result.
-/

namespace Bagay

/-- Outside of its string literals, that is, behind an even number of quotes, the source has a stray
character that is not the end of an arrow. -/
def HasStray (s : String) : Prop :=
  ∃ before c after, s.toList = before ++ c :: after ∧ Even (before.count '"') ∧ IsStray c ∧
    ¬ (c = '>' ∧ before.getLast? = some '-')

/-! ### The lexer -/

namespace Lexeme

/-- No lexeme is continued by a stray character, except a minus sign by the end of an arrow. -/
theorem stands_stray {before after : List Char} {c : Char} {l : Lexeme}
    (hclosed : (cut before).any isOpen = false) (hc : IsStray c)
    (harrow : ¬ (c = '>' ∧ before.getLast? = some '-')) (hl : l ∈ (cut before).getLast?) :
    l.Stands (c :: after) := by
  by_contra hnot
  obtain ⟨t, d, ht, hd, hcont⟩ :=
    exists_continuedBy (stands_last hl) (isOpen_of_last hclosed hl) hnot
  obtain rfl : c = d := Option.some.inj hd
  cases hcont with
  | word _ hword => exact hc.1 hword
  | number _ hdigit => exact hc.1 (.inr (.inl hdigit))
  | arrow =>
    obtain rfl := eq_mark_of_token? ht rfl
    obtain ⟨d, hlast, hminus⟩ := exists_getLast?_of_last hl
    obtain rfl : '-' = d := Option.some.inj hminus
    exact harrow ⟨rfl, hlast⟩

end Lexeme

theorem exists_unknown_of_hasStray {s : String} (h : HasStray s) :
    ∃ t ∈ Token.lex s, t.kind = .unknown := by
  obtain ⟨before, c, after, hs, heven, hc, harrow⟩ := h
  have hclosed := Lexeme.any_isOpen_cut_eq_false_iff.mpr heven
  have hstands : (Lexeme.unknown c).Stands after := isStray_iff.mp hc
  have hfirst : Lexeme.solids (c :: after) = .unknown c :: Lexeme.solids after :=
    Lexeme.solids_append hstands rfl
  have hsolids : Lexeme.solids s.toList =
      Lexeme.solids before ++ .unknown c :: Lexeme.solids after := by
    rw [hs, Lexeme.solids_append_of_last fun l hl => Lexeme.stands_stray hclosed hc harrow hl,
      hfirst]
  refine ⟨⟨.unknown, String.ofList [c]⟩, ?_, rfl⟩
  rw [Lexeme.lex_eq_filterMap_solids, hsolids]
  exact List.mem_filterMap.mpr ⟨.unknown c, by simp, rfl⟩

/-! ### The parser -/

theorem Program.Spelled.kind_ne_unknown {read : String → Option Float} {A : List Stmt} {w : Nat}
    {ts : List Token} (h : Program.Spelled read A w ts) : ∀ t ∈ ts, t.kind ≠ .unknown := by
  refine h.forall_mem (fun t e ht => ?_) (fun _ => by simp) fun _ => by simp
  cases ht <;> simp

namespace Parser

theorem exists_error_of_unknown (read : String → Option Float) {ts : List Token} {t : Token}
    (ht : t ∈ ts) (hk : t.kind = .unknown) : ∃ e, (program read ts).result = .error e := by
  rcases hr : (program read ts).result with e | A
  · exact ⟨e, rfl⟩
  · exact absurd hk ((spelled_of_result_eq_ok hr).kind_ne_unknown t ht)

/-- An error of syntax is at or before the first token of the unknown kind. -/
theorem length_le_findIdx {read : String → Option Float} {taken rest : List Token} {e : ParseError}
    {n : Nat} (h : program read (taken ++ rest) = ⟨.error e, rest, n⟩) (he : e.IsSyntax) :
    taken.length ≤ (taken ++ rest).findIdx fun t => t.kind = .unknown := by
  obtain ⟨c, A, w, hA⟩ := program_completable h he
  have hnone : taken.findIdx (fun t => t.kind = .unknown) = taken.length := by
    refine List.findIdx_eq_length.mpr fun t ht => ?_
    simpa using hA.kind_ne_unknown t (List.mem_append_left c ht)
  rw [List.findIdx_append, hnone, if_neg (Nat.lt_irrefl _)]
  omega

end Parser

/-- **Stray characters**: a source that has one outside of its string literals is rejected with an
error of syntax. It prints nothing and leaves nothing bound, and the parser stops at or before the
first token of the unknown kind. -/
theorem stray_characters_are_rejected {s : String} (h : HasStray s) (setting file : Option String) :
    let r := runSource setting file s
    let k := (Token.lex s).findIdx fun t => t.kind = .unknown
    (∃ e, e.IsSyntax ∧ r.result = .error (.parse e)) ∧ r.output = "" ∧ r.machine = .fresh file ∧
      k < (Token.lex s).length ∧
      ((Cursor.start (Token.lex s)).perform Numeral.read? .program).cursor.position ≤ k := by
  intro r k
  obtain ⟨t, ht, hk⟩ := exists_unknown_of_hasStray h
  obtain ⟨e, herror⟩ := Parser.exists_error_of_unknown Numeral.read? ht hk
  obtain ⟨taken, rest, n, hts, ho, hp⟩ := Cursor.exists_taken_of_error herror
  have he : e.IsSyntax := isSyntax_of_program_lex (hts ▸ ho)
  have hrun : r = ⟨.fresh file, .error (.parse e), "", _⟩ := Machine.run_of_error herror _ _
  refine ⟨⟨e, he, by rw [hrun]⟩, by rw [hrun], by rw [hrun], ?_, ?_⟩
  · exact List.findIdx_lt_length_of_exists ⟨t, ht, by simpa using hk⟩
  · have hle := Parser.length_le_findIdx ho he
    rw [← hts] at hle
    rw [hp]
    exact hle

/-- A stray character in a string literal, then the point of a decimal number, which is not the only
mistake of the source. -/
def pointAndAccent : String := "ipakita \"é\"; bagay x -> = 1.5; ipakita é"

theorem pointAndAccent_is_rejected : HasStray pointAndAccent ∧
    (∃ e, ParseError.IsSyntax e ∧
      (runSource none none pointAndAccent).result = .error (.parse e)) ∧
    (runSource none none pointAndAccent).output = "" ∧
    (Token.lex pointAndAccent).findIdx (fun t => t.kind = .unknown) = 8 ∧
    ((Cursor.start (Token.lex pointAndAccent)).perform Numeral.read? .program).cursor.position ≤
      8 := by
  have hstray : HasStray pointAndAccent :=
    ⟨"ipakita \"é\"; bagay x -> = 1".toList, '.', "5; ipakita é".toList, by decide +kernel,
      by decide +kernel, by simp [IsStray, IsWordChar], by decide⟩
  have hfirst : (Token.lex pointAndAccent).findIdx (fun t => t.kind = .unknown) = 8 := by
    decide +kernel
  obtain ⟨hresult, houtput, -, -, hle⟩ := stray_characters_are_rejected hstray none none
  rw [hfirst] at hle
  exact ⟨hstray, hresult, houtput, hfirst, hle⟩

end Bagay
