import Bagay.Record
import Bagay.Proofs.Token.Seam

/-!
# When the lexer commutes with concatenation

Two sources one after the other have the tokens of both, unless the first ends with a token that the
second continues: a word by a word character, a number by a digit, a minus sign by the end of an
arrow. The last token decides and not the last character, which may be a digit of a number as well
as of a name. White space at the end of the first source keeps its last token apart.

In terms of lexemes, the condition is that the last lexeme of the first source stands in front of
the second (`merges_iff`). If it does, nothing changes at the seam (`Lexeme.solids_append_of_last`);
if it does not, then a longer lexeme takes its place, and with it another token
(`Lexeme.filterMap_solids_append_ne`).

* `Token.ContinuedBy`, `Merges`: the tokens and characters that do not stay apart.
* `Lexeme.exists_continuedBy`, `Lexeme.not_stands_of_continuedBy`: the same for lexemes.
* `lex_append_eq_iff`: the result.
-/

namespace Bagay

/-- The character continues the token, if it follows at once. -/
inductive Token.ContinuedBy : Token → Char → Prop
  | word {t : Token} {c : Char} (ht : t.kind = .keyword ∨ t.kind = .identifier)
      (hc : IsWordChar c) : ContinuedBy t c
  | number {t : Token} {c : Char} (ht : t.kind = .number) (hc : c.isDigit) : ContinuedBy t c
  | arrow : ContinuedBy ⟨.operator, "-"⟩ '>'

/-- The source `a` does not end in white space, and `b` starts with a character that continues its
last token. -/
def Merges (a b : String) : Prop :=
  (∀ c ∈ a.toList.getLast?, c ∉ [' ', '\t', '\r', '\n']) ∧
    ∃ t c, (Token.lex a).getLast? = some t ∧ b.toList.head? = some c ∧ t.ContinuedBy c

/-! ### Continued lexemes -/

namespace Lexeme

variable {l : Lexeme} {cs ds : List Char} {t : Token} {c : Char}

/-- A lexeme that stands at the end of a text and not in front of `ds` is continued. -/
theorem exists_continuedBy (h : l.Stands []) (hopen : l.isOpen = false) (hds : ¬ l.Stands ds) :
    ∃ t c, l.token? = some t ∧ ds.head? = some c ∧ t.ContinuedBy c := by
  cases l with
  | space text => exact absurd h hds
  | string body closed =>
    refine absurd ⟨h.1, fun hc => ?_⟩ hds
    subst hc
    cases hopen
  | number digits =>
    have hhead : ¬ ∀ c ∈ ds.head?, c.isDigit = false := fun hr => hds ⟨h.1, h.2.1, hr⟩
    push Not at hhead
    obtain ⟨c, hc, hdigit⟩ := hhead
    exact ⟨_, c, rfl, hc, .number rfl (by simpa using hdigit)⟩
  | word text =>
    have hhead : ¬ ∀ c ∈ ds.head?, isWordRest c = false := fun hr => hds ⟨h.1, hr⟩
    push Not at hhead
    obtain ⟨c, hc, hword⟩ := hhead
    exact ⟨_, c, rfl, hc, .word (Token.kind_ofWord _) (isWordRest_iff.mp (by simpa using hword))⟩
  | arrow => exact absurd h hds
  | mark c =>
    rcases h with hc | ⟨rfl, -⟩
    · exact absurd (.inl hc) hds
    · have hhead : ds.head? = some '>' := by
        by_contra hne
        exact hds (.inr ⟨rfl, hne⟩)
      exact ⟨_, '>', rfl, hhead, .arrow⟩
  | unknown c => exact absurd h hds

theorem exists_word_of_token? (ht : l.token? = some t)
    (hk : t.kind = .keyword ∨ t.kind = .identifier) : ∃ text, l = word text := by
  cases l with
  | space text => cases ht
  | word text => exact ⟨text, rfl⟩
  | _ =>
    cases ht
    simp at hk

theorem exists_number_of_token? (ht : l.token? = some t) (hk : t.kind = .number) :
    ∃ digits, l = number digits := by
  cases l with
  | space text => cases ht
  | number digits => exact ⟨digits, rfl⟩
  | word text =>
    cases ht
    rcases Token.kind_ofWord (String.ofList text) with hw | hw <;> simp [hw] at hk
  | _ =>
    cases ht
    simp at hk

theorem eq_mark_of_token? {text : String} (ht : l.token? = some ⟨.operator, text⟩)
    (hc : text.toList = [c]) : l = mark c := by
  cases l with
  | mark d =>
    cases ht
    rw [String.toList_ofList] at hc
    cases hc
    rfl
  | arrow =>
    cases ht
    cases hc
  | word text =>
    have hkind := congrArg Token.kind (Option.some.inj ht)
    rcases Token.kind_ofWord (String.ofList text) with hw | hw <;> simp [hw] at hkind
  | _ => simp [token?] at ht

/-- A lexeme whose token is continued does not stand there. -/
theorem not_stands_of_continuedBy (ht : l.token? = some t) (hc : ds.head? = some c)
    (h : t.ContinuedBy c) : ¬ l.Stands ds := by
  intro hds
  cases h with
  | word hk hword =>
    obtain ⟨text, rfl⟩ := exists_word_of_token? ht hk
    exact isWordRest_eq_false_iff.mp (hds.2 c hc) hword
  | number hk hdigit =>
    obtain ⟨digits, rfl⟩ := exists_number_of_token? ht hk
    simp [hds.2.2 c hc] at hdigit
  | arrow =>
    obtain rfl := eq_mark_of_token? ht rfl
    rcases hds with hmark | ⟨-, hhead⟩
    · revert hmark
      decide
    · exact hhead hc

/-! ### The last lexeme of a source -/

theorem isWhitespace_of_isWordRest (h : isWordRest c) : c.isWhitespace = false := by
  rw [← Bool.not_eq_true, isWhitespace_iff]
  rintro (rfl | rfl | rfl | rfl) <;> revert h <;> decide

theorem Stands.spelling_ne_nil {rest : List Char} (h : l.Stands rest) : l.spelling ≠ [] := by
  cases l with
  | space text => exact h.1
  | number digits => exact h.1
  | word text =>
    obtain ⟨⟨d, ds, rfl, -⟩, -⟩ := h
    simp [spelling]
  | _ => simp [spelling]

/-- A lexeme that is not open ends in white space exactly if it is white space. -/
theorem Stands.isWhitespace_getLast? {rest : List Char} (h : l.Stands rest)
    (hopen : l.isOpen = false) (hc : l.spelling.getLast? = some c) :
    c.isWhitespace = l.isSpace := by
  have hmem := List.mem_of_getLast? hc
  cases l with
  | space text => exact h.2 c hmem
  | string body closed =>
    cases closed with
    | true =>
      have hquote : (string body true).spelling.getLast? = some '"' := by
        rw [spelling, ← List.cons_append]
        exact List.getLast?_concat
      rw [hquote] at hc
      cases hc
      rfl
    | false => cases hopen
  | number digits =>
    exact isWhitespace_of_isWordRest (isWordRest_iff.mpr (.inr (.inl (h.2.1 c hmem))))
  | word text =>
    obtain ⟨⟨d, ds, rfl, hd, hds⟩, -⟩ := h
    rcases List.mem_cons.mp hmem with rfl | hmem
    · exact isWhitespace_of_isWordRest (isWordRest_iff.mpr ((isWordStart_iff.mp hd).imp_right .inr))
    · exact isWhitespace_of_isWordRest (hds c hmem)
  | arrow =>
    cases hc
    rfl
  | mark d =>
    cases hc
    rcases h with hd | ⟨rfl, -⟩
    · rcases isMark_iff.mp hd with rfl | rfl | rfl <;> rfl
    · rfl
  | unknown d =>
    cases hc
    exact h.2.2.2.2.2

theorem exists_getLast?_of_last (h : (cut cs).getLast? = some l) :
    ∃ c, cs.getLast? = some c ∧ l.spelling.getLast? = some c := by
  obtain ⟨ls, hls⟩ := List.getLast?_eq_some_iff.mp h
  have hcs := flatMap_spelling_cut cs
  rw [hls, List.flatMap_append, List.flatMap_singleton] at hcs
  obtain ⟨c, hc⟩ := Option.ne_none_iff_exists'.mp fun hnone =>
    (stands_last h).spelling_ne_nil (List.getLast?_eq_none_iff.mp hnone)
  refine ⟨c, ?_, hc⟩
  rw [← hcs, List.getLast?_append, hc]
  rfl

theorem isSpace_last_eq_false_iff (h : (cut cs).getLast? = some l) (hopen : l.isOpen = false) :
    l.isSpace = false ↔ ∀ c ∈ cs.getLast?, c ∉ [' ', '\t', '\r', '\n'] := by
  obtain ⟨c, hc, hspell⟩ := exists_getLast?_of_last h
  rw [← (stands_last h).isWhitespace_getLast? hopen hspell, ← Bool.not_eq_true, isWhitespace_iff,
    hc]
  simp

theorem getLast?_filterMap_of_last (h : (cut cs).getLast? = some l) (ht : l.token? = some t) :
    ((cut cs).filterMap token?).getLast? = some t := by
  obtain ⟨ls, hls⟩ := List.getLast?_eq_some_iff.mp h
  rw [hls, List.filterMap_append, List.filterMap_cons_some ht, List.filterMap_nil]
  exact List.getLast?_concat

theorem isSpace_eq_false_iff : l.isSpace = false ↔ ∃ t, l.token? = some t := by
  cases l <;> simp [isSpace, token?]

/-! ### A continued lexeme becomes another one -/

theorem ofList_append_takeWhile_ne {p : Char → Bool} (hc : ds.head? = some c) (hp : p c)
    (cs : List Char) : String.ofList (cs ++ ds.takeWhile p) ≠ String.ofList cs := by
  obtain ⟨ds, rfl⟩ := List.head?_eq_some_iff.mp hc
  intro heq
  have hnil := String.ofList_injective heq
  rw [List.append_right_eq_self, List.takeWhile_cons_of_pos hp] at hnil
  cases hnil

/-- In front of a character that continues it, a lexeme gives way to a longer one, and its token to
one with another text. -/
theorem exists_longer (h : l.Stands []) (ht : l.token? = some t) (hc : ds.head? = some c)
    (hcont : t.ContinuedBy c) : ∃ (l' : Lexeme) (rest : List Char) (t' : Token),
      l.spelling ++ ds = l'.spelling ++ rest ∧ l'.Stands rest ∧ l'.token? = some t' ∧
        t'.text ≠ t.text := by
  cases hcont with
  | word hk hword =>
    obtain ⟨text, rfl⟩ := exists_word_of_token? ht hk
    cases ht
    obtain ⟨⟨d, us, rfl, hd, hus⟩, -⟩ := h
    refine ⟨word (d :: us ++ ds.takeWhile isWordRest), ds.dropWhile isWordRest, _, ?_, ⟨?_, ?_⟩,
      rfl, ?_⟩
    · simp [spelling]
    · refine ⟨d, us ++ ds.takeWhile isWordRest, rfl, hd, fun u hu => ?_⟩
      rcases List.mem_append.mp hu with hu | hu
      · exact hus u hu
      · exact List.mem_takeWhile_imp hu
    · exact head?_dropWhile_eq_false _ ds
    · rw [Token.text_ofWord, Token.text_ofWord]
      exact ofList_append_takeWhile_ne hc (isWordRest_iff.mpr hword) (d :: us)
  | number hk hdigit =>
    obtain ⟨digits, rfl⟩ := exists_number_of_token? ht hk
    cases ht
    refine ⟨number (digits ++ ds.takeWhile Char.isDigit), ds.dropWhile Char.isDigit, _, ?_,
      ⟨?_, ?_, ?_⟩, rfl, ?_⟩
    · simp [spelling]
    · simp [h.1]
    · intro u hu
      rcases List.mem_append.mp hu with hu | hu
      · exact h.2.1 u hu
      · exact List.mem_takeWhile_imp hu
    · exact head?_dropWhile_eq_false _ ds
    · exact ofList_append_takeWhile_ne hc hdigit digits
  | arrow =>
    obtain rfl := eq_mark_of_token? ht rfl
    obtain ⟨ds, rfl⟩ := List.head?_eq_some_iff.mp hc
    exact ⟨arrow, ds, _, rfl, trivial, rfl, by decide⟩

/-- **Merging**: if the last lexeme of the first text does not stand in front of the second, the two
texts have other tokens together than one after the other. -/
theorem filterMap_solids_append_ne (hl : (cut cs).getLast? = some l) (hopen : l.isOpen = false)
    (hds : ¬ l.Stands ds) : (solids (cs ++ ds)).filterMap token? ≠
      (solids cs).filterMap token? ++ (solids ds).filterMap token? := by
  obtain ⟨t, c, ht, hc, hcont⟩ := exists_continuedBy (stands_last hl) hopen hds
  -- along the lexemes of the first text: all but the last one are cut off on both sides
  fun_induction cut cs with
  | case1 => cases hl
  | case2 d cs ih =>
    have hstands := stands_next d cs
    rw [← spelling_next d cs, List.append_assoc, filterMap_solids_append hstands]
    rcases hrest : (next d cs).2 with _ | ⟨e, rest⟩
    · rw [hrest, cut_nil] at hl
      obtain rfl : (next d cs).1 = l := by simpa using hl
      rw [hrest] at hstands
      obtain ⟨l', rest, t', hsplit, hstands', ht', hne⟩ := exists_longer hstands ht hc hcont
      rw [List.nil_append, hsplit, filterMap_solids_append hstands', ht, ht']
      intro heq
      have hhead : t' = t := by simpa using congrArg List.head? heq
      exact hne (congrArg Token.text hhead)
    · rw [hrest, cut_cons, List.getLast?_cons_cons] at hl
      rw [hrest] at hstands ih
      rw [filterMap_solids_append (hstands.append_of_ne_nil (by simp) ds), List.append_assoc]
      intro heq
      rw [cut_cons] at ih
      exact ih hl (List.append_cancel_left heq)

end Lexeme

/-! ### Two sources -/

open Lexeme in
/-- Two sources merge exactly if the last lexeme of the first does not stand in front of the
second. -/
theorem merges_iff {a : String} (ha : isUnterminated a = false) (b : String) :
    Merges a b ↔ ∃ l, (cut a.toList).getLast? = some l ∧ ¬ l.Stands b.toList := by
  constructor
  · rintro ⟨hlast, t, c, ht, hc, hcont⟩
    have hne : cut a.toList ≠ [] := by
      intro hnil
      rw [Token.lex, hnil] at ht
      cases ht
    obtain ⟨l, hl⟩ := Option.ne_none_iff_exists'.mp (mt List.getLast?_eq_none_iff.mp hne)
    -- not ending in white space, the source ends in a lexeme with a token, which is the last one
    have hsolid := (isSpace_last_eq_false_iff hl (isOpen_of_last ha hl)).mpr hlast
    obtain ⟨t', ht'⟩ := isSpace_eq_false_iff.mp hsolid
    have hlex : (Token.lex a).getLast? = some t' := getLast?_filterMap_of_last hl ht'
    obtain rfl : t' = t := Option.some.inj (hlex.symm.trans ht)
    exact ⟨l, hl, not_stands_of_continuedBy ht' hc hcont⟩
  · rintro ⟨l, hl, hds⟩
    have hopen := isOpen_of_last ha hl
    obtain ⟨t, c, ht, hc, hcont⟩ := exists_continuedBy (stands_last hl) hopen hds
    have hsolid := isSpace_eq_false_iff.mpr ⟨t, ht⟩
    exact ⟨(isSpace_last_eq_false_iff hl hopen).mp hsolid, t, c, getLast?_filterMap_of_last hl ht,
      hc, hcont⟩

theorem lexRecords_append {a : String} (ha : Even (quotes a)) (b : String) :
    lexRecords (a ++ b) = lexRecords b := by
  have hodd : isUnterminated (a ++ b) ↔ isUnterminated b := by
    rw [isUnterminated_iff_odd, isUnterminated_iff_odd, quotes_append, Nat.odd_add',
      iff_true_right ha]
  simp only [lexRecords, hodd]

/-- **Concatenation**: behind a source without an open string literal, the lexer commutes with
concatenation exactly if the two sources do not merge, and the records are those of the second
source. -/
theorem lex_append_eq_iff (a b : String) (ha : Even (quotes a)) :
    (Token.lex (a ++ b) = Token.lex a ++ Token.lex b ↔ ¬ Merges a b) ∧
      lexRecords (a ++ b) = lexRecords b := by
  have hclosed : isUnterminated a = false := isUnterminated_eq_false_iff.mpr ha
  refine ⟨?_, lexRecords_append ha b⟩
  simp only [Lexeme.lex_eq_filterMap_solids, String.toList_append]
  rw [merges_iff hclosed]
  constructor
  · rintro heq ⟨l, hl, hds⟩
    have hopen := Lexeme.isOpen_of_last hclosed hl
    exact Lexeme.filterMap_solids_append_ne hl hopen hds heq
  · intro h
    push Not at h
    rw [Lexeme.solids_append_of_last h, List.filterMap_append]

/-- The same last character, once of a name and once of a number, in front of the same source. -/
theorem nameOne_merges_and_numberOne_does_not :
    Even (quotes "x1") ∧ Even (quotes "1") ∧
      Merges "x1" "a\"" ∧ ¬ Merges "1" "a\"" ∧
        Token.lex ("x1" ++ "a\"") ≠ Token.lex "x1" ++ Token.lex "a\"" ∧
          lexRecords ("1" ++ "a\"") = [.unterminatedString] := by
  have hname : Even (quotes "x1") := by decide
  have hnumber : Even (quotes "1") := by decide
  have hmerges : Merges "x1" "a\"" :=
    ⟨by simp, ⟨.identifier, "x1"⟩, 'a', by decide +kernel, rfl, .word (.inr rfl) (.inl rfl)⟩
  have hapart : Token.lex ("1" ++ "a\"") = Token.lex "1" ++ Token.lex "a\"" := by decide +kernel
  refine ⟨hname, hnumber, hmerges, (lex_append_eq_iff _ _ hnumber).1.mp hapart, fun heq => ?_, ?_⟩
  · exact (lex_append_eq_iff _ _ hname).1.mp heq hmerges
  · rw [(lex_append_eq_iff _ _ hnumber).2]
    decide +kernel

end Bagay
