import Bagay.Proofs.Token.Lexing

/-!
# Laying out tokens

A token is well formed if some source has it. Its spelling, laid out in a source, is read back as
the token wherever the next character does not continue it, and the rest of the source is read as if
it stood alone.

* `wellFormed_of_mem_lex`: the tokens of a source are well formed.
* `Token.WellFormed.exists_lexeme`: a well-formed token is spelled by a lexeme that stands in front
  of every text that separates.
* `Spells cs ts`: in front of a text that separates, the characters `cs` are read as the tokens
  `ts`. Texts of this kind can be put one after the other (`Spells.append`, `Spells.gap_append`),
  and a source of this kind has the tokens (`Spells.lex_eq`).
* `Token.Layout`: tokens with the white space around them, which is free as long as there is some
  between two tokens.
* `lex_layout_round_trip`: the tokens of the sources are exactly the well-formed ones, and each of
  their layouts is read back, whatever its white space is.
-/

namespace Bagay

/-- A word that is not reserved. -/
def IsName (n : String) : Prop := IsWord n.toList ∧ n ∉ Token.keywords

instance : DecidablePred IsName := fun _ => inferInstanceAs (Decidable (_ ∧ _))

namespace Token

/-- The tokens that a source can have. -/
def WellFormed (t : Token) : Prop :=
  match t.kind with
  | .keyword => t.text ∈ keywords
  | .identifier => IsName t.text
  | .operator => t.text ∈ ["=", "->", "+", "-", ";"]
  | .string => '"' ∉ t.text.toList
  | .number => IsNumeral t.text.toList
  | .unknown => ∃ c, IsStray c ∧ t.text.toList = [c]

/-- The characters of a token in a source: a string stands between quotes. -/
def spelling (t : Token) : List Char :=
  if t.kind = .string then '"' :: (t.text.toList ++ ['"']) else t.text.toList

end Token

/-! ### The tokens of a source are well formed -/

theorem Chunk.wellFormed {cs rest : List Char} {t : Token} (h : Chunk cs rest (some t)) :
    t.WellFormed := by
  cases h with
  | closedString h => simpa [Token.WellFormed] using h
  | openString h => simpa [Token.WellFormed] using h
  | number h _ => simpa [Token.WellFormed] using h
  | keyword _ _ hk => exact hk
  | identifier h _ hk => exact ⟨by simpa using h, hk⟩
  | arrow => simp [Token.WellFormed]
  | mark h => rcases h with rfl | rfl | rfl <;> simp [Token.WellFormed]
  | minus _ => simp [Token.WellFormed]
  | @stray c _ h => exact ⟨c, h, by simp⟩

theorem Lexing.wellFormed {cs : List Char} {chunks : List (List Char)} {ts : List Token}
    (h : Lexing cs chunks ts) : ∀ t ∈ ts, t.WellFormed := by
  induction h with
  | nil => simp
  | @cons cs rest chunks t' ts h hrest ih =>
    intro t ht
    rcases List.mem_append.mp ht with ht | ht
    · obtain rfl : t' = some t := Option.mem_toList.mp ht
      exact h.wellFormed
    · exact ih t ht

theorem wellFormed_of_mem_lex {s : String} {t : Token} (h : t ∈ Token.lex s) : t.WellFormed := by
  obtain ⟨chunks, ts, hl⟩ := exists_lexing s.toList
  rw [Lexeme.lex_eq_filterMap_solids, ← hl.eq_filterMap_solids] at h
  exact hl.wellFormed t h

/-! ### Well-formed tokens are read back -/

/-- A text that continues no token: it does not start with a word character or the end of an
arrow. -/
def Separates (rest : List Char) : Prop := ∀ c ∈ rest.head?, ¬ IsWordChar c ∧ c ≠ '>'

theorem Separates.not_isDigit {rest : List Char} (h : Separates rest) :
    ∀ c ∈ rest.head?, c.isDigit = false := by
  intro c hc
  rw [← Bool.not_eq_true]
  exact fun hd => (h c hc).1 (.inr (.inl hd))

theorem separates_cons {c : Char} (h : c.isWhitespace ∨ c = ';') (rest : List Char) :
    Separates (c :: rest) := by
  intro d hd
  cases hd
  rw [isWhitespace_iff] at h
  rcases h with (rfl | rfl | rfl | rfl) | rfl <;> exact ⟨by simp [IsWordChar], by decide⟩

theorem isWord_of_mem_keywords {s : String} (h : s ∈ Token.keywords) : IsWord s.toList := by
  simp only [Token.keywords, Token.declareWord, Token.printWord, Token.datatypes, List.cons_append,
    List.nil_append, List.mem_cons, List.not_mem_nil, or_false] at h
  rcases h with rfl | rfl | rfl | rfl <;> decide

theorem Token.WellFormed.exists_lexeme {t : Token} (h : t.WellFormed) :
    ∃ l : Lexeme, l.spelling = t.spelling ∧ l.token? = some t ∧ l.isSpace = false ∧
      l.isOpen = false ∧ ∀ rest, Separates rest → l.Stands rest := by
  obtain ⟨k, s⟩ := t
  have hword : IsWord s.toList → ∀ rest, Separates rest → (Lexeme.word s.toList).Stands rest :=
    fun hw rest hrest => ⟨isWord_iff.mp hw, fun c hc => isWordRest_eq_false_iff.mpr (hrest c hc).1⟩
  cases k with
  | keyword =>
    have hk : s ∈ keywords := h
    refine ⟨.word s.toList, rfl, ?_, rfl, rfl, hword (isWord_of_mem_keywords hk)⟩
    simp only [Lexeme.token?, String.ofList_toList, ofWord, if_pos hk]
  | identifier =>
    refine ⟨.word s.toList, rfl, ?_, rfl, rfl, hword h.1⟩
    simp only [Lexeme.token?, String.ofList_toList, ofWord, if_neg h.2]
  | operator =>
    simp only [WellFormed, List.mem_cons, List.not_mem_nil, or_false] at h
    rcases h with rfl | rfl | rfl | rfl | rfl
    · exact ⟨.mark '=', rfl, rfl, rfl, rfl, fun _ _ => .inl rfl⟩
    · exact ⟨.arrow, rfl, rfl, rfl, rfl, fun _ _ => trivial⟩
    · exact ⟨.mark '+', rfl, rfl, rfl, rfl, fun _ _ => .inl rfl⟩
    · exact ⟨.mark '-', rfl, rfl, rfl, rfl, fun _ hr => .inr ⟨rfl, fun hc => (hr _ hc).2 rfl⟩⟩
    · exact ⟨.mark ';', rfl, rfl, rfl, rfl, fun _ _ => .inl rfl⟩
  | string =>
    refine ⟨.string s.toList true, rfl, ?_, rfl, rfl, fun _ _ => ⟨h, by simp⟩⟩
    simp [Lexeme.token?]
  | number =>
    refine ⟨.number s.toList, rfl, ?_, rfl, rfl, fun _ hr => ⟨h.1, h.2, hr.not_isDigit⟩⟩
    simp [Lexeme.token?]
  | unknown =>
    obtain ⟨c, hc, hs⟩ := h
    refine ⟨.unknown c, hs.symm, ?_, rfl, rfl, fun _ _ => isStray_iff.mp hc⟩
    rw [Lexeme.token?, ← hs, String.ofList_toList]

/-- The tokens of the characters, none of which is a string literal without a closing quote. -/
structure Reads (cs : List Char) (ts : List Token) : Prop where
  tokens : (Lexeme.solids cs).filterMap Lexeme.token? = ts
  closed : (Lexeme.solids cs).any Lexeme.isOpen = false

namespace Reads

variable {cs : List Char} {ts : List Token}

theorem nil : Reads [] [] := ⟨by simp, by simp⟩

theorem lex_eq {s : String} (h : Reads s.toList ts) :
    Token.lex s = ts ∧ isUnterminated s = false := by
  rw [Lexeme.lex_eq_filterMap_solids, Lexeme.isUnterminated_eq_any_solids]
  exact ⟨h.tokens, h.closed⟩

theorem space_append {ws : List Char} (hws : ∀ c ∈ ws, c.isWhitespace) (h : Reads cs ts) :
    Reads (ws ++ cs) ts := by
  constructor
  · rw [Lexeme.solids_space_append hws]
    exact h.tokens
  · rw [Lexeme.solids_space_append hws]
    exact h.closed

theorem token_append {t : Token} (ht : t.WellFormed) (hcs : Separates cs) (h : Reads cs ts) :
    Reads (t.spelling ++ cs) (t :: ts) := by
  obtain ⟨l, hl, htok, hs, hopen, hstands⟩ := ht.exists_lexeme
  have hsolids := Lexeme.solids_append (hstands cs hcs) hs
  rw [hl] at hsolids
  constructor
  · rw [hsolids, List.filterMap_cons_some htok, h.tokens]
  · rw [hsolids, List.any_cons, hopen, h.closed, Bool.false_or]

end Reads

/-- In front of a text that separates, the characters are read as the tokens. -/
def Spells (cs : List Char) (ts : List Token) : Prop :=
  ∀ rest us, Separates rest → Reads rest us → Reads (cs ++ rest) (ts ++ us)

namespace Spells

variable {cs ds : List Char} {ts us : List Token}

theorem token {t : Token} (h : t.WellFormed) : Spells t.spelling [t] :=
  fun _ _ hrest hr => hr.token_append h hrest

theorem space {ws : List Char} (hws : ∀ c ∈ ws, c.isWhitespace) (h : Spells cs ts) :
    Spells (ws ++ cs) ts := by
  intro rest us hrest hr
  rw [List.append_assoc]
  exact (h rest us hrest hr).space_append hws

theorem append (hcs : Spells cs ts) (hds : Spells ds us) (hsep : ∀ rest, Separates (ds ++ rest)) :
    Spells (cs ++ ds) (ts ++ us) := by
  intro rest vs hrest hr
  rw [List.append_assoc, List.append_assoc]
  exact hcs _ _ (hsep rest) (hds rest vs hrest hr)

theorem gap_append {c : Char} (hc : c = ' ' ∨ c = '\n') (hcs : Spells cs ts) (hds : Spells ds us) :
    Spells (cs ++ c :: ds) (ts ++ us) := by
  have hc' : c.isWhitespace := by rcases hc with rfl | rfl <;> decide
  have hws : ∀ d ∈ [c], d.isWhitespace := by simpa using hc'
  exact hcs.append (hds.space hws) fun rest => separates_cons (.inl hc') (ds ++ rest)

theorem lex_eq {s : String} (h : Spells s.toList ts) :
    Token.lex s = ts ∧ isUnterminated s = false := by
  have hr : Reads (s.toList ++ []) (ts ++ []) := h [] [] (by simp [Separates]) .nil
  rw [List.append_nil, List.append_nil] at hr
  exact hr.lex_eq

end Spells

/-! ### Layouts -/

/-- White space only. -/
def IsSpacing (s : String) : Prop := ∀ c ∈ s.toList, c = ' ' ∨ c = '\t' ∨ c = '\r' ∨ c = '\n'

instance : DecidablePred IsSpacing := fun s => List.decidableBAll _ s.toList

theorem IsSpacing.isWhitespace {s : String} (h : IsSpacing s) : ∀ c ∈ s.toList, c.isWhitespace :=
  fun c hc => isWhitespace_iff.mpr (h c hc)

theorem IsSpacing.separates {s : String} (h : IsSpacing s) (hne : s ≠ "") (rest : List Char) :
    Separates (s.toList ++ rest) := by
  obtain ⟨c, cs, hs⟩ := List.exists_cons_of_ne_nil fun he => hne (String.toList_eq_nil_iff.mp he)
  have hc : c.isWhitespace := h.isWhitespace c (by simp [hs])
  rw [hs]
  exact separates_cons (.inl hc) (cs ++ rest)

/-- Tokens with the white space around them: some text in front of the first token, and a gap after
each of them. Only the last gap may be empty. -/
structure Token.Layout where
  lead : String
  items : List (Token × String)
  lead_spacing : IsSpacing lead
  gap_spacing : ∀ p ∈ items, IsSpacing p.2
  gap_ne : ∀ p ∈ items.dropLast, p.2 ≠ ""

namespace Token.Layout

/-- The tokens of a layout. -/
def tokens (l : Layout) : List Token := l.items.map Prod.fst

/-- The source that a layout makes. -/
def source (l : Layout) : String :=
  String.ofList (l.lead.toList ++ l.items.flatMap fun p => p.1.spelling ++ p.2.toList)

/-- The layout with a single space after each token. -/
def spaced (ts : List Token) : Layout where
  lead := ""
  items := ts.map fun t => (t, " ")
  lead_spacing := by decide
  gap_spacing := by
    intro p hp
    obtain ⟨t, -, rfl⟩ := List.mem_map.mp hp
    show IsSpacing " "
    decide
  gap_ne := by
    intro p hp
    obtain ⟨t, -, rfl⟩ := List.mem_map.mp (List.dropLast_subset _ hp)
    show " " ≠ ""
    decide

theorem tokens_spaced (ts : List Token) : (spaced ts).tokens = ts := by
  simp [tokens, spaced, Function.comp_def]

theorem reads_items : ∀ items : List (Token × String), (∀ p ∈ items, p.1.WellFormed) →
    (∀ p ∈ items, IsSpacing p.2) → (∀ p ∈ items.dropLast, p.2 ≠ "") →
      Reads (items.flatMap fun p => p.1.spelling ++ p.2.toList) (items.map Prod.fst)
  | [], _, _, _ => .nil
  | (t, gap) :: items, hwf, hgap, hne => by
    rw [List.forall_mem_cons] at hwf hgap
    have hne' : ∀ p ∈ items.dropLast, p.2 ≠ "" := by
      rcases items with _ | ⟨q, items⟩
      · simp
      · exact fun p hp => hne p (List.mem_cons_of_mem _ hp)
    have ih := reads_items items hwf.2 hgap.2 hne'
    rw [List.flatMap_cons, List.append_assoc, List.map_cons]
    refine (ih.space_append hgap.1.isWhitespace).token_append hwf.1 ?_
    -- a gap that is empty is the last one, and nothing follows it
    by_cases he : gap = ""
    · obtain rfl : items = [] := by
        rcases items with _ | ⟨q, items⟩
        · rfl
        · exact absurd he (hne (t, gap) List.mem_cons_self)
      simp [he, Separates]
    · exact hgap.1.separates he _

theorem lex_source (l : Layout) (h : ∀ t ∈ l.tokens, t.WellFormed) :
    Token.lex l.source = l.tokens ∧ isUnterminated l.source = false := by
  have hitems := reads_items l.items (fun p hp => h p.1 (List.mem_map_of_mem hp)) l.gap_spacing
    l.gap_ne
  refine Reads.lex_eq ?_
  rw [source, String.toList_ofList]
  exact hitems.space_append l.lead_spacing.isWhitespace

end Token.Layout

/-- **Layouts**: a list of tokens is the one of some source exactly if its tokens are well formed;
then every layout of it is read back, with all closing quotes in place. So a source can be laid out
anew by its tokens, also if its last string literal was not closed. -/
theorem lex_layout_round_trip :
    (∀ ts : List Token, (∃ s, Token.lex s = ts) ↔ ∀ t ∈ ts, t.WellFormed) ∧
      (∀ l : Token.Layout, (∀ t ∈ l.tokens, t.WellFormed) →
        Token.lex l.source = l.tokens ∧ isUnterminated l.source = false) ∧
        ∀ (s : String) (l : Token.Layout), l.tokens = Token.lex s →
          Token.lex l.source = Token.lex s ∧ isUnterminated l.source = false := by
  refine ⟨fun ts => ⟨?_, fun h => ?_⟩, fun l h => l.lex_source h, fun s l h => ?_⟩
  · rintro ⟨s, rfl⟩ t ht
    exact wellFormed_of_mem_lex ht
  · rw [← Token.Layout.tokens_spaced ts] at h ⊢
    exact ⟨_, (Token.Layout.lex_source _ h).1⟩
  · rw [← h]
    refine l.lex_source fun t ht => ?_
    rw [h] at ht
    exact wellFormed_of_mem_lex ht

/-- A minus sign before a stray greater-than sign, and a string that looks like code. -/
def trickyLayout : Token.Layout where
  lead := "\t"
  items := [(⟨.operator, "-"⟩, "\r\n"), (⟨.unknown, ">"⟩, " "), (⟨.string, "-> bagay;"⟩, "  "),
    (⟨.number, "007"⟩, " "), (⟨.identifier, "bagay1"⟩, "")]
  lead_spacing := by decide
  gap_spacing := by decide
  gap_ne := by decide

theorem trickyLayout_is_read_back : (∀ t ∈ trickyLayout.tokens, t.WellFormed) ∧
    trickyLayout.source = "\t-\r\n> \"-> bagay;\"  007 bagay1" ∧
    Token.lex trickyLayout.source = trickyLayout.tokens ∧
      isUnterminated trickyLayout.source = false := by
  have hname : IsName "bagay1" := by decide
  have hwf : ∀ t ∈ trickyLayout.tokens, t.WellFormed := by
    simp [Token.Layout.tokens, trickyLayout, Token.WellFormed, hname, IsNumeral, IsStray,
      IsWordChar]
  exact ⟨hwf, by decide, lex_layout_round_trip.2.1 trickyLayout hwf⟩

end Bagay
