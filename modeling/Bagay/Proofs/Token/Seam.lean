import Bagay.Proofs.Token.Layout
import Mathlib.Algebra.Ring.Parity

/-!
# Sources one after the other

What the lexer makes of a source does not depend on what is put behind it, unless a string literal
is open at the seam or the second text goes on with a character that continues the last token.
Whether a string literal is open is a matter of counting quotes.

* `quotes`: the number of quotes in a source.
* `Lexeme.countP_isOpen_cut`: at most one string literal is open, and the number of quotes tells;
  `isUnterminated_iff_odd`: there is one exactly if this number is odd.
* `Lexeme.exists_split_of_mem_cut`: where a lexeme stands in the text, the number of quotes is even.
* `Lexeme.solids_append_of_last`: the solid lexemes of two texts one after the other are those of
  both, if the last lexeme of the first text stands in front of the second.
* `Lexeme.solids_append_of_separates`: this is so if no string literal is open and the second text
  separates.
* `lex_append_spacing_append`: white space between two sources keeps their tokens apart.
-/

namespace Bagay

/-- The number of quotes in a source. -/
abbrev quotes (s : String) : Nat := s.toList.count '"'

namespace Lexeme

/-! ### Counting quotes -/

theorem count_quote_of_forall {p : Char → Bool} {cs : List Char} (h : ∀ c ∈ cs, p c)
    (hq : p '"' = false) : cs.count '"' = 0 :=
  List.count_eq_zero.mpr (not_mem_of_forall h hq)

/-- Only a string literal without its closing quote has an odd number of quotes. -/
theorem Stands.odd_count_quote {l : Lexeme} {rest : List Char} (h : l.Stands rest) :
    Odd (l.spelling.count '"') ↔ l.isOpen := by
  cases l with
  | string body closed =>
    have hbody : body.count '"' = 0 := List.count_eq_zero.mpr h.1
    cases closed <;> simp [spelling, isOpen, hbody, Nat.odd_iff]
  | space text => simp [spelling, isOpen, count_quote_of_forall h.2 (by decide)]
  | number digits => simp [spelling, isOpen, count_quote_of_forall h.2.1 (by decide)]
  | word text =>
    obtain ⟨⟨c, cs, rfl, hc, hcs⟩, -⟩ := h
    have hq : c ≠ '"' := by rintro rfl; revert hc; decide
    simp [spelling, isOpen, hq, count_quote_of_forall hcs (by decide)]
  | arrow => simp [spelling, isOpen]
  | mark c =>
    have hq : c ≠ '"' := by
      rcases h with hc | ⟨rfl, -⟩
      · rcases isMark_iff.mp hc with rfl | rfl | rfl <;> decide
      · decide
    simp [spelling, isOpen, hq]
  | unknown c => simp [spelling, isOpen, h.1]

theorem Stands.rest_eq_nil_of_isOpen {l : Lexeme} {rest : List Char} (h : l.Stands rest)
    (hopen : l.isOpen) : rest = [] := by
  cases l with
  | string body closed => exact h.2 (by simpa [isOpen] using hopen)
  | _ => simp [isOpen] at hopen

/-- At most one string literal is open: one, if the number of quotes is odd. -/
theorem countP_isOpen_cut (cs : List Char) : (cut cs).countP isOpen = cs.count '"' % 2 := by
  fun_induction cut cs with
  | case1 => rfl
  | case2 c cs ih =>
    have hstands := stands_next c cs
    have hodd := hstands.odd_count_quote
    rw [Nat.odd_iff] at hodd
    rw [← spelling_next c cs, List.count_append, List.countP_cons, ih]
    by_cases hopen : (next c cs).1.isOpen
    · have hcount := hodd.mpr hopen
      simp only [hstands.rest_eq_nil_of_isOpen hopen, hopen, List.count_nil, if_true]
      omega
    · have hcount : (next c cs).1.spelling.count '"' % 2 ≠ 1 := fun h => hopen (hodd.mp h)
      rw [if_neg hopen]
      omega

theorem any_isOpen_cut_iff (cs : List Char) : (cut cs).any isOpen ↔ Odd (cs.count '"') := by
  rw [Nat.odd_iff, ← countP_isOpen_cut, List.any_eq_true, ← List.countP_pos_iff,
    countP_isOpen_cut]
  omega

theorem any_isOpen_cut_eq_false_iff {cs : List Char} :
    (cut cs).any isOpen = false ↔ Even (cs.count '"') := by
  rw [← Bool.not_eq_true, any_isOpen_cut_iff, Nat.not_odd_iff_even]

/-- A lexeme of a text stands at a place of it, behind an even number of quotes. -/
theorem exists_split_of_mem_cut {cs : List Char} {l : Lexeme} (h : l ∈ cut cs) :
    ∃ before after, cs = before ++ (l.spelling ++ after) ∧ Even (before.count '"') := by
  fun_induction cut cs with
  | case1 => cases h
  | case2 c cs ih =>
    have hstands := stands_next c cs
    rcases List.mem_cons.mp h with rfl | h
    · exact ⟨[], (next c cs).2, (spelling_next c cs).symm, by simp⟩
    obtain ⟨before, after, hrest, heven⟩ := ih h
    -- something follows the first lexeme, so it is not open
    have hfirst : Even ((next c cs).1.spelling.count '"') := by
      rw [← Nat.not_odd_iff_even, hstands.odd_count_quote]
      intro hopen
      rw [hstands.rest_eq_nil_of_isOpen hopen, cut_nil] at h
      cases h
    refine ⟨(next c cs).1.spelling ++ before, after, ?_, ?_⟩
    · rw [List.append_assoc, ← hrest, spelling_next]
    · rw [List.count_append]
      exact hfirst.add heven

/-! ### Appending a text -/

/-- What is put behind a text that is not empty is out of sight. -/
theorem Stands.append_of_ne_nil {l : Lexeme} {rest : List Char} (h : l.Stands rest)
    (hne : rest ≠ []) (ds : List Char) : l.Stands (rest ++ ds) := by
  obtain ⟨d, rest, rfl⟩ := List.exists_cons_of_ne_nil hne
  cases l with
  | string body closed =>
    refine ⟨h.1, fun hc => ?_⟩
    exact absurd (h.2 hc) hne
  | _ => exact h

/-- A lexeme at the end of a text that is not open stands in front of a text that separates. -/
theorem Stands.of_separates {l : Lexeme} {ds : List Char} (h : l.Stands [])
    (hopen : l.isOpen = false) (hds : Separates ds) : l.Stands ds := by
  cases l with
  | space text => exact h
  | string body closed =>
    refine ⟨h.1, fun hc => ?_⟩
    subst hc
    cases hopen
  | number digits => exact ⟨h.1, h.2.1, hds.not_isDigit⟩
  | word text => exact ⟨h.1, fun c hc => isWordRest_eq_false_iff.mpr (hds c hc).1⟩
  | arrow => trivial
  | mark c => exact h.imp_right fun ⟨hc, _⟩ => ⟨hc, fun hhead => (hds _ hhead).2 rfl⟩
  | unknown c => exact h

theorem stands_last {cs : List Char} {l : Lexeme} (h : l ∈ (cut cs).getLast?) : l.Stands [] := by
  fun_induction cut cs with
  | case1 => cases h
  | case2 c cs ih =>
    have hstands := stands_next c cs
    rcases hrest : (next c cs).2 with _ | ⟨d, rest⟩
    · rw [hrest, cut_nil] at h
      cases h
      rwa [hrest] at hstands
    · refine ih ?_
      rw [hrest, cut_cons] at h ⊢
      rwa [List.getLast?_cons_cons] at h

theorem isOpen_of_last {cs : List Char} {l : Lexeme} (hcs : (cut cs).any isOpen = false)
    (h : l ∈ (cut cs).getLast?) : l.isOpen = false := by
  have hclosed := List.any_eq_false.mp hcs l (List.mem_of_getLast? h)
  simpa using hclosed

/-- **The seam**: the solid lexemes of two texts one after the other, where the last lexeme of the
first text stands in front of the second. -/
theorem solids_append_of_last {cs ds : List Char} (h : ∀ l ∈ (cut cs).getLast?, l.Stands ds) :
    solids (cs ++ ds) = solids cs ++ solids ds := by
  fun_induction cut cs with
  | case1 => simp
  | case2 c cs ih =>
    have hstands := stands_next c cs
    -- the first lexeme is the last one, or the seam is out of its sight
    have hseam : (next c cs).1.Stands ((next c cs).2 ++ ds) ∧
        ∀ l ∈ (cut (next c cs).2).getLast?, l.Stands ds := by
      rcases hrest : (next c cs).2 with _ | ⟨d, rest⟩
      · rw [hrest, cut_nil] at h
        exact ⟨h _ rfl, by simp⟩
      · rw [hrest] at hstands
        rw [hrest, cut_cons, List.getLast?_cons_cons] at h
        exact ⟨hstands.append_of_ne_nil (by simp) ds, by rwa [cut_cons]⟩
    rw [← spelling_next c cs, List.append_assoc, solids_spelling_append hseam.1,
      solids_spelling_append hstands, ih hseam.2]
    split <;> rfl

/-- The first text leaves no string literal open, and the second continues no token. -/
theorem solids_append_of_separates {cs ds : List Char} (hcs : (cut cs).any isOpen = false)
    (hds : Separates ds) : solids (cs ++ ds) = solids cs ++ solids ds := by
  refine solids_append_of_last fun l hl => ?_
  exact (stands_last hl).of_separates (isOpen_of_last hcs hl) hds

end Lexeme

theorem quotes_append (s t : String) : quotes (s ++ t) = quotes s + quotes t := by
  rw [quotes, String.toList_append, List.count_append]

theorem isUnterminated_iff_odd (s : String) : isUnterminated s ↔ Odd (quotes s) :=
  Lexeme.any_isOpen_cut_iff s.toList

theorem isUnterminated_eq_false_iff {s : String} :
    isUnterminated s = false ↔ Even (quotes s) :=
  Lexeme.any_isOpen_cut_eq_false_iff

theorem lex_append_spacing_append {s w : String} (hs : Even (quotes s))
    (hw : IsSpacing w) (hne : w ≠ "") (t : String) :
    Token.lex (s ++ w ++ t) = Token.lex s ++ Token.lex t := by
  have hclosed := Lexeme.any_isOpen_cut_eq_false_iff.mpr hs
  simp only [Lexeme.lex_eq_filterMap_solids, String.toList_append, List.append_assoc]
  rw [Lexeme.solids_append_of_separates hclosed (hw.separates hne t.toList),
    Lexeme.solids_space_append hw.isWhitespace, List.filterMap_append]

end Bagay
