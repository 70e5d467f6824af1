import Bagay.Proofs.Token.Munch

/-!
# Lexings

A lexing of a source is any way to write it as a concatenation of chunks. `Chunk cs rest t?` says
that the characters `cs`, followed by `rest`, are a chunk, and which token it carries: white space
carries none. What may follow a number, a word or a minus sign is restricted; what may follow white
space is not, so a source has many lexings.

All of them have the same tokens. A chunk is a lexeme that stands in front of the rest of the source
(`Chunk.exists_stands`, `Stands.chunk`), so cutting the source from left to right gives a lexing,
and in any other one each chunk that is not white space is cut off as a whole.

* `exists_lexing`: a lexing exists.
* `Lexing.eq_filterMap_solids`: its tokens are those of the solid lexemes.
* `lex_eq_of_lexing`: the tokens of a source are the tokens of each of its lexings, and only white
  space and quotes are lost.
-/

namespace Bagay

/-- A letter, a digit or an underscore. -/
def IsWordChar (c : Char) : Prop := c.isAlpha ∨ c.isDigit ∨ c = '_'

/-- A letter or an underscore, then letters, digits and underscores. -/
def IsWord (cs : List Char) : Prop :=
  ∃ c ds, cs = c :: ds ∧ (c.isAlpha ∨ c = '_') ∧ ∀ d ∈ ds, IsWordChar d

/-- Digits, at least one. -/
def IsNumeral (cs : List Char) : Prop := cs ≠ [] ∧ ∀ c ∈ cs, c.isDigit

/-- A character that belongs to no other chunk. -/
def IsStray (c : Char) : Prop :=
  ¬ IsWordChar c ∧ c ∉ [' ', '\t', '\r', '\n', '"', '=', '+', '-', ';']

/-- The characters `cs` in front of `rest` are a chunk, with its token if it has one. -/
inductive Chunk : List Char → List Char → Option Token → Prop
  | space {cs rest : List Char} (hne : cs ≠ [])
      (h : ∀ c ∈ cs, c = ' ' ∨ c = '\t' ∨ c = '\r' ∨ c = '\n') : Chunk cs rest none
  | closedString {body rest : List Char} (h : '"' ∉ body) :
      Chunk ('"' :: (body ++ ['"'])) rest (some ⟨.string, String.ofList body⟩)
  | openString {body : List Char} (h : '"' ∉ body) :
      Chunk ('"' :: body) [] (some ⟨.string, String.ofList body⟩)
  | number {cs rest : List Char} (h : IsNumeral cs) (hrest : ∀ c ∈ rest.head?, ¬ c.isDigit) :
      Chunk cs rest (some ⟨.number, String.ofList cs⟩)
  | keyword {cs rest : List Char} (h : IsWord cs) (hrest : ∀ c ∈ rest.head?, ¬ IsWordChar c)
      (hk : String.ofList cs ∈ Token.keywords) :
      Chunk cs rest (some ⟨.keyword, String.ofList cs⟩)
  | identifier {cs rest : List Char} (h : IsWord cs) (hrest : ∀ c ∈ rest.head?, ¬ IsWordChar c)
      (hk : String.ofList cs ∉ Token.keywords) :
      Chunk cs rest (some ⟨.identifier, String.ofList cs⟩)
  | arrow {rest : List Char} : Chunk ['-', '>'] rest (some ⟨.operator, "->"⟩)
  | mark {c : Char} {rest : List Char} (h : c = '=' ∨ c = '+' ∨ c = ';') :
      Chunk [c] rest (some ⟨.operator, String.ofList [c]⟩)
  | minus {rest : List Char} (hrest : rest.head? ≠ some '>') :
      Chunk ['-'] rest (some ⟨.operator, "-"⟩)
  | stray {c : Char} {rest : List Char} (h : IsStray c) :
      Chunk [c] rest (some ⟨.unknown, String.ofList [c]⟩)

/-- A source, the chunks that it is written as, and their tokens. -/
inductive Lexing : List Char → List (List Char) → List Token → Prop
  | nil : Lexing [] [] []
  | cons {cs rest : List Char} {chunks : List (List Char)} {t : Option Token} {ts : List Token}
      (h : Chunk cs rest t) (hrest : Lexing rest chunks ts) :
      Lexing (cs ++ rest) (cs :: chunks) (t.toList ++ ts)

/-! ### Characters -/

theorem isWordRest_iff {c : Char} : isWordRest c ↔ IsWordChar c := by
  simp [isWordRest, IsWordChar, Char.isAlphanum, or_assoc]

theorem isWordRest_eq_false_iff {c : Char} : isWordRest c = false ↔ ¬ IsWordChar c := by
  rw [← isWordRest_iff, Bool.not_eq_true]

theorem isWordStart_iff {c : Char} : isWordStart c ↔ c.isAlpha ∨ c = '_' := by
  simp [isWordStart]

theorem isWord_iff {cs : List Char} :
    IsWord cs ↔ ∃ c ds, cs = c :: ds ∧ isWordStart c ∧ ∀ d ∈ ds, isWordRest d := by
  simp only [IsWord, isWordStart_iff, isWordRest_iff]

theorem isWord_cons_iff {c : Char} {ds : List Char} :
    IsWord (c :: ds) ↔ isWordStart c ∧ ds.all isWordRest := by
  rw [isWord_iff, List.all_eq_true]
  constructor
  · rintro ⟨_, _, heq, hc, hds⟩
    cases heq
    exact ⟨hc, hds⟩
  · rintro ⟨hc, hds⟩
    exact ⟨c, ds, rfl, hc, hds⟩

instance : DecidablePred IsWord
  | [] => .isFalse (by simp [IsWord])
  | _ :: _ => decidable_of_iff' _ isWord_cons_iff

theorem isStray_iff {c : Char} : IsStray c ↔ c ≠ '"' ∧ c.isDigit = false ∧ isWordStart c = false ∧
    c ≠ '-' ∧ isMark c = false ∧ c.isWhitespace = false := by
  simp only [← Bool.not_eq_true, isWordStart_iff, isMark_iff, isWhitespace_iff, IsStray, IsWordChar,
    List.mem_cons, List.not_mem_nil, or_false, not_or]
  constructor
  · rintro ⟨⟨ha, hd, hu⟩, h1, h2, h3, h4, hq, he, hp, hm, hs⟩
    exact ⟨hq, hd, ⟨ha, hu⟩, hm, ⟨he, hp, hs⟩, h1, h2, h3, h4⟩
  · rintro ⟨hq, hd, ⟨ha, hu⟩, hm, ⟨he, hp, hs⟩, h1, h2, h3, h4⟩
    exact ⟨⟨ha, hd, hu⟩, h1, h2, h3, h4, hq, he, hp, hm, hs⟩

/-! ### Chunks are lexemes that stand in front of the rest -/

theorem Lexeme.Stands.chunk {l : Lexeme} {rest : List Char} (h : l.Stands rest) :
    Chunk l.spelling rest l.token? := by
  cases l with
  | space text => exact .space h.1 fun c hc => isWhitespace_iff.mp (h.2 c hc)
  | string body closed =>
    cases closed with
    | true => exact .closedString h.1
    | false =>
      obtain rfl := h.2 rfl
      have hsp : (string body false).spelling = '"' :: body := by simp [spelling]
      rw [hsp]
      exact .openString h.1
  | number digits =>
    exact .number ⟨h.1, h.2.1⟩ fun c hc => by simp [h.2.2 c hc]
  | word text =>
    have hw : IsWord text := isWord_iff.mpr h.1
    have hrest : ∀ c ∈ rest.head?, ¬ IsWordChar c := fun c hc =>
      isWordRest_eq_false_iff.mp (h.2 c hc)
    simp only [spelling, token?, Token.ofWord]
    split
    · next hk => exact .keyword hw hrest hk
    · next hk => exact .identifier hw hrest hk
  | arrow => exact .arrow
  | mark c =>
    rcases h with hc | ⟨rfl, hrest⟩
    · exact .mark (isMark_iff.mp hc)
    · exact .minus hrest
  | unknown c => exact .stray (isStray_iff.mpr h)

theorem Chunk.exists_stands {cs rest : List Char} {t : Option Token} (h : Chunk cs rest t) :
    ∃ l : Lexeme, l.Stands rest ∧ l.spelling = cs ∧ l.token? = t := by
  cases h with
  | space hne h => exact ⟨.space cs, ⟨hne, fun c hc => isWhitespace_iff.mpr (h c hc)⟩, rfl, rfl⟩
  | @closedString body _ h => exact ⟨.string body true, ⟨h, by simp⟩, rfl, rfl⟩
  | @openString body h =>
    exact ⟨.string body false, ⟨h, fun _ => rfl⟩, by simp [Lexeme.spelling], rfl⟩
  | number h hrest => exact ⟨.number cs, ⟨h.1, h.2, by simpa using hrest⟩, rfl, rfl⟩
  | keyword h hrest hk =>
    refine ⟨.word cs, ⟨isWord_iff.mp h, fun c hc => ?_⟩, rfl, ?_⟩
    · exact isWordRest_eq_false_iff.mpr (hrest c hc)
    · simp only [Lexeme.token?, Token.ofWord, if_pos hk]
  | identifier h hrest hk =>
    refine ⟨.word cs, ⟨isWord_iff.mp h, fun c hc => ?_⟩, rfl, ?_⟩
    · exact isWordRest_eq_false_iff.mpr (hrest c hc)
    · simp only [Lexeme.token?, Token.ofWord, if_neg hk]
  | arrow => exact ⟨.arrow, trivial, rfl, rfl⟩
  | @mark c _ h => exact ⟨.mark c, .inl (isMark_iff.mpr h), rfl, rfl⟩
  | minus hrest => exact ⟨.mark '-', .inr ⟨rfl, hrest⟩, rfl, rfl⟩
  | @stray c _ h => exact ⟨.unknown c, isStray_iff.mp h, rfl, rfl⟩

/-! ### Every source has a lexing -/

theorem exists_lexing (cs : List Char) : ∃ chunks ts, Lexing cs chunks ts := by
  fun_induction Lexeme.cut cs with
  | case1 => exact ⟨[], [], .nil⟩
  | case2 c cs ih =>
    obtain ⟨chunks, ts, h⟩ := ih
    rw [← Lexeme.spelling_next c cs]
    exact ⟨_, _, .cons (Lexeme.stands_next c cs).chunk h⟩

/-! ### All lexings have the same tokens -/

namespace Lexeme

theorem filterMap_solids_append {l : Lexeme} {rest : List Char} (h : l.Stands rest) :
    (solids (l.spelling ++ rest)).filterMap token? =
      l.token?.toList ++ (solids rest).filterMap token? := by
  rw [solids_spelling_append h]
  cases l <;> rfl

end Lexeme

theorem Lexing.eq_filterMap_solids {cs : List Char} {chunks : List (List Char)} {ts : List Token}
    (h : Lexing cs chunks ts) : ts = (Lexeme.solids cs).filterMap Lexeme.token? := by
  induction h with
  | nil => simp
  | cons h hrest ih =>
    obtain ⟨l, hl, rfl, rfl⟩ := h.exists_stands
    rw [Lexeme.filterMap_solids_append hl, ← ih]

/-! ### What is lost -/

/-- The characters that are neither white space nor quotes. -/
def IsKept (c : Char) : Prop := c ∉ [' ', '\t', '\r', '\n', '"']

instance : DecidablePred IsKept := fun _ => inferInstanceAs (Decidable (¬ _))

theorem Chunk.filter_text {cs rest : List Char} {t : Option Token} (h : Chunk cs rest t) :
    (t.toList.flatMap (·.text.toList)).filter IsKept = cs.filter IsKept := by
  cases h with
  | space hne h =>
    have hcs : cs.filter IsKept = [] := by
      rw [List.filter_eq_nil_iff]
      intro c hc
      rcases h c hc with rfl | rfl | rfl | rfl <;> decide
    rw [hcs]
    rfl
  | @closedString body _ h => simp [IsKept]
  | @openString body h => simp [IsKept]
  | arrow => rfl
  | minus hrest => rfl
  | number _ _ => simp
  | keyword _ _ _ => simp
  | identifier _ _ _ => simp
  | mark _ => simp
  | stray _ => simp

theorem Lexing.filter_text {cs : List Char} {chunks : List (List Char)} {ts : List Token}
    (h : Lexing cs chunks ts) :
    (ts.flatMap (·.text.toList)).filter IsKept = cs.filter IsKept := by
  induction h with
  | nil => rfl
  | cons h hrest ih =>
    rw [List.flatMap_append, List.filter_append, List.filter_append, h.filter_text, ih]

/-- **Lexings**: a source has one, all of them have the tokens of the source, and the characters of
the tokens are those of the source, less white space and quotes. -/
theorem lex_eq_of_lexing (s : String) :
    (∃ chunks ts, Lexing s.toList chunks ts) ∧
      (∀ chunks ts, Lexing s.toList chunks ts → Token.lex s = ts) ∧
        ((Token.lex s).flatMap (·.text.toList)).filter IsKept = s.toList.filter IsKept := by
  have hlex : ∀ chunks ts, Lexing s.toList chunks ts → Token.lex s = ts := by
    intro chunks ts h
    rw [Lexeme.lex_eq_filterMap_solids, h.eq_filterMap_solids]
  obtain ⟨chunks, ts, h⟩ := exists_lexing s.toList
  refine ⟨⟨chunks, ts, h⟩, hlex, ?_⟩
  rw [hlex chunks ts h, h.filter_text]

end Bagay
