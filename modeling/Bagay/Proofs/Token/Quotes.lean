import Bagay.Record
import Bagay.Proofs.Token.Seam

/-!
# Splitting a source at its quotes

The lexer reads a source in one pass and looks for a closing quote only where it meets an opening
one. What it finds can be said without any pass: split the source at all of its quotes, and the
pieces lie outside and inside of string literals by turns. A piece outside is read as if it were a
source of its own, a piece inside is a string. The last piece lies inside exactly if the number of
quotes is odd, and this is the only case of a literal that is not closed.

* `pieces`, `pieceTokens`: the pieces of a source, and the tokens of a piece by its index.
* `Lexeme.Splits`: a text and its pieces, two quotes at a time; `Lexeme.splits_splitOn`: every text
  is split like this.
* `Lexeme.Splits.tokens_eq`: the tokens of the pieces are those of the text, by induction on the
  split.
* `Lexeme.Splits.exists_last`: the literal that is not closed is the last token.
* `lex_eq_of_pieces`: the result.
-/

namespace Bagay

/-- The pieces of a source between its quotes. -/
def pieces (s : String) : List String := (s.toList.splitOn '"').map String.ofList

/-- The tokens of the piece with index `i`: outside of quotes those that it has as a source, inside
of them a string. -/
def pieceTokens (i : Nat) (g : String) : List Token :=
  if Even i then Token.lex g else [⟨.string, g⟩]

theorem pieceTokens_add_two (i : Nat) : pieceTokens (i + 1 + 1) = pieceTokens i := by
  funext g
  simp [pieceTokens, Nat.even_add_one]

namespace Lexeme

variable {cs : List Char} {gs : List (List Char)}

/-- A text and its pieces, outside and inside of quotes by turns. The last piece lies inside if the
last literal is not closed, and outside otherwise. -/
inductive Splits : List Char → List (List Char) → Prop
  | outside {g : List Char} (hg : '"' ∉ g) : Splits g [g]
  | opened {g h : List Char} (hg : '"' ∉ g) (hh : '"' ∉ h) : Splits (g ++ '"' :: h) [g, h]
  | closed {g h cs : List Char} {gs : List (List Char)} (hg : '"' ∉ g) (hh : '"' ∉ h)
      (hcs : Splits cs gs) : Splits (g ++ '"' :: (h ++ '"' :: cs)) (g :: h :: gs)

theorem splits_splitOn (cs : List Char) : Splits cs (cs.splitOn '"') := by
  by_cases hcs : '"' ∈ cs
  · obtain ⟨g, ds, rfl, hg⟩ := List.eq_append_cons_of_mem hcs
    rw [List.splitOn_append_cons_self_of_not_mem hg]
    by_cases hds : '"' ∈ ds
    · obtain ⟨h, es, rfl, hh⟩ := List.eq_append_cons_of_mem hds
      rw [List.splitOn_append_cons_self_of_not_mem hh]
      -- after two quotes, the rest starts outside again
      exact .closed hg hh (splits_splitOn es)
    · rw [List.splitOn_eq_singleton hds]
      exact .opened hg hds
  · rw [List.splitOn_eq_singleton hcs]
    exact .outside hcs
termination_by cs.length
decreasing_by
  subst_vars
  simp only [List.length_append, List.length_cons]
  omega

theorem Splits.length_eq (h : Splits cs gs) : gs.length = cs.count '"' + 1 := by
  induction h with
  | outside hg => simp [List.count_eq_zero.mpr hg]
  | opened hg hh => simp [List.count_eq_zero.mpr hg, List.count_eq_zero.mpr hh]
  | closed hg hh hcs ih =>
    simp only [List.length_cons, List.count_append, List.count_cons_self,
      List.count_eq_zero.mpr hg, List.count_eq_zero.mpr hh, ih]
    omega

/-! ### The tokens of the pieces -/

theorem any_isOpen_cut_of_not_mem {g : List Char} (hg : '"' ∉ g) : (cut g).any isOpen = false := by
  rw [← Bool.not_eq_true, any_isOpen_cut_iff, List.count_eq_zero.mpr hg]
  decide

/-- A quote ends what stands in front of it. -/
theorem solids_append_quote {g : List Char} (hg : '"' ∉ g) (ds : List Char) :
    solids (g ++ '"' :: ds) = solids g ++ solids ('"' :: ds) := by
  refine solids_append_of_separates (any_isOpen_cut_of_not_mem hg) fun c hc => ?_
  obtain rfl : '"' = c := Option.some.inj hc
  exact ⟨by simp [IsWordChar], by decide⟩

theorem tokens_outside (g : List Char) :
    (solids g).filterMap token? = Token.lex (String.ofList g) := by
  rw [lex_eq_filterMap_solids, String.toList_ofList]

/-- The tokens of a text that goes on with a string literal, closed or not. -/
theorem tokens_literal {g h rest : List Char} {closed : Bool} (hg : '"' ∉ g)
    (hstands : (string h closed).Stands rest) :
    (solids (g ++ ((string h closed).spelling ++ rest))).filterMap token? =
      Token.lex (String.ofList g) ++ ⟨.string, String.ofList h⟩ ::
        (solids rest).filterMap token? := by
  have hquote : solids (g ++ ((string h closed).spelling ++ rest)) =
      solids g ++ solids ((string h closed).spelling ++ rest) := solids_append_quote hg _
  rw [hquote, solids_append hstands rfl, List.filterMap_append, tokens_outside]
  rfl

theorem tokens_opened {g h : List Char} (hg : '"' ∉ g) (hh : '"' ∉ h) :
    (solids (g ++ '"' :: h)).filterMap token? =
      Token.lex (String.ofList g) ++ [⟨.string, String.ofList h⟩] := by
  have hstands : (string h false).Stands [] := ⟨hh, fun _ => rfl⟩
  simpa [spelling] using tokens_literal hg hstands

theorem tokens_closed {g h : List Char} (hg : '"' ∉ g) (hh : '"' ∉ h) (cs : List Char) :
    (solids (g ++ '"' :: (h ++ '"' :: cs))).filterMap token? =
      Token.lex (String.ofList g) ++ ⟨.string, String.ofList h⟩ ::
        (solids cs).filterMap token? := by
  have hstands : (string h true).Stands cs := ⟨hh, fun hc => by cases hc⟩
  simpa [spelling] using tokens_literal hg hstands

/-- **Pieces**: the tokens of a text are those of its pieces. -/
theorem Splits.tokens_eq (h : Splits cs gs) : (solids cs).filterMap token? =
    ((gs.map String.ofList).mapIdx pieceTokens).flatten := by
  induction h with
  | outside hg => simp [pieceTokens, tokens_outside]
  | opened hg hh => simp [pieceTokens, tokens_opened hg hh]
  | closed hg hh hcs ih =>
    rw [tokens_closed hg hh, ih]
    -- two pieces further on, the indices are shifted by two and have the same parity
    simp only [List.map_cons, List.mapIdx_cons, pieceTokens_add_two, List.flatten_cons]
    simp [pieceTokens]

/-! ### The literal that is not closed -/

/-- If the number of quotes is odd, the text behind the last one is the last token. -/
theorem Splits.exists_last (h : Splits cs gs) (hodd : Odd (cs.count '"')) :
    ∃ before g, cs = before ++ '"' :: g ∧ '"' ∉ g ∧ gs.getLast? = some g ∧
      ((solids cs).filterMap token?).getLast? = some ⟨.string, String.ofList g⟩ := by
  induction h with
  | outside hg =>
    rw [List.count_eq_zero.mpr hg] at hodd
    exact absurd hodd (by decide)
  | @opened g h hg hh =>
    refine ⟨g, h, rfl, hh, rfl, ?_⟩
    rw [tokens_opened hg hh]
    exact List.getLast?_concat
  | @closed g h cs gs hg hh hcs ih =>
    have hrest : Odd (cs.count '"') := by
      simp only [List.count_append, List.count_cons_self, List.count_eq_zero.mpr hg,
        List.count_eq_zero.mpr hh, Nat.odd_iff] at hodd ⊢
      omega
    obtain ⟨before, k, rfl, hk, hlast, htokens⟩ := ih hrest
    refine ⟨g ++ '"' :: (h ++ '"' :: before), k, by simp, hk, ?_, ?_⟩
    · rw [List.getLast?_cons, List.getLast?_cons, hlast]
      rfl
    · rw [tokens_closed hg hh, List.getLast?_append, List.getLast?_cons, htokens]
      rfl

end Lexeme

/-- **Quotes**: a source has one piece more than quotes. Its tokens are those of the pieces with an
even index, each read as a source, and a string for each piece with an odd one. If the number of
quotes is odd, one string literal is not closed, and the lexer makes one record; otherwise there is
neither. And if it is odd, the text behind the last quote is the last piece and the last token. -/
theorem lex_eq_of_pieces (s : String) :
    (pieces s).length = quotes s + 1 ∧
    Token.lex s = ((pieces s).mapIdx pieceTokens).flatten ∧
    (Lexeme.cut s.toList).countP Lexeme.isOpen = quotes s % 2 ∧
    lexRecords s = (if Odd (quotes s) then [.unterminatedString] else []) ∧
    (Odd (quotes s) → ∃ before g, s = before ++ "\"" ++ g ∧ '"' ∉ g.toList ∧
      (pieces s).getLast? = some g ∧ (Token.lex s).getLast? = some ⟨.string, g⟩) := by
  have hsplits := Lexeme.splits_splitOn s.toList
  refine ⟨?_, ?_, Lexeme.countP_isOpen_cut s.toList, ?_, fun hodd => ?_⟩
  · unfold pieces quotes
    rw [List.length_map, hsplits.length_eq]
  · rw [Lexeme.lex_eq_filterMap_solids, hsplits.tokens_eq]
    rfl
  · unfold quotes
    simp only [lexRecords, isUnterminated_iff_odd]
  · obtain ⟨before, g, hs, hg, hlast, htokens⟩ := hsplits.exists_last hodd
    refine ⟨String.ofList before, String.ofList g, ?_, by simpa using hg, ?_, ?_⟩
    · rw [← String.toList_inj]
      simpa using hs
    · rw [pieces, List.getLast?_map, hlast]
      rfl
    · rw [Lexeme.lex_eq_filterMap_solids, htokens]

/-- A literal that touches an operator and holds two of them, an empty piece between two literals,
and a literal without its closing quote. -/
def threeQuotes : String := "x-\"->;\"\"2 ;\n"

theorem threeQuotes_ends_in_string : Odd (quotes threeQuotes) ∧
    pieces threeQuotes = ["x-", "->;", "", "2 ;\n"] ∧
    (Token.lex threeQuotes).getLast? = some ⟨.string, "2 ;\n"⟩ := by
  have hodd : Odd (quotes threeQuotes) := by decide
  have hpieces : pieces threeQuotes = ["x-", "->;", "", "2 ;\n"] := by decide +kernel
  obtain ⟨-, -, -, -, hlast⟩ := lex_eq_of_pieces threeQuotes
  obtain ⟨before, g, -, -, hg, htoken⟩ := hlast hodd
  rw [hpieces] at hg
  obtain rfl : "2 ;\n" = g := Option.some.inj hg
  exact ⟨hodd, hpieces, htoken⟩

end Bagay
