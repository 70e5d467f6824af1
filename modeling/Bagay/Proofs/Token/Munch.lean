import Bagay.Token.Lexeme
import Mathlib.Data.List.TakeWhile

/-!
# Where lexemes end

`l.Stands rest` says that the lexeme `l` can stand in a source in front of `rest`: its characters
are of its kind, and `rest` does not go on with a character that would belong to it. The first
lexeme of a source stands in front of what follows (`stands_next`), and a lexeme that stands in
front of `rest` is the first one that is cut off (`cut_append`). White space is the exception: a run
of it may be cut short and still stand there, so statements about sources are made about their solid
lexemes, the ones that are not white space.

* `solids`: the solid lexemes of a source; they determine its tokens (`lex_eq_filterMap_solids`) and
  whether its last string literal is closed (`isUnterminated_eq_any_solids`).
* `solids_append`: a lexeme that stands in front of `rest` is the first solid one.
* `solids_space_append`: white space in front does not matter.
* `solids_spelling_append`: the two together.
-/

namespace Bagay

/-! ### Characters -/

theorem isMark_iff {c : Char} : isMark c ↔ c = '=' ∨ c = '+' ∨ c = ';' := by
  simp [isMark, or_assoc]

theorem isWhitespace_iff {c : Char} :
    c.isWhitespace ↔ c = ' ' ∨ c = '\t' ∨ c = '\r' ∨ c = '\n' := by
  simp [Char.isWhitespace, or_assoc]

theorem le_toNat_of_isAlpha {c : Char} (h : c.isAlpha) : 'A'.toNat ≤ c.toNat := by
  rcases (Bool.or_eq_true c.isUpper c.isLower).mp h with hu | hl
  · have hA : 'A'.val ≤ c.val := (of_decide_eq_true hu).1
    exact UInt32.le_iff_toNat_le.mp hA
  · have ha : 'a'.val ≤ c.val := of_decide_eq_true ((Bool.and_eq_true _ _).mp hl).1
    have hlt : 'A'.toNat ≤ 'a'.toNat := by decide
    exact hlt.trans (UInt32.le_iff_toNat_le.mp ha)

theorem isDigit_of_isWordStart {c : Char} (h : isWordStart c) : c.isDigit = false := by
  rw [← Bool.not_eq_true, Char.isDigit_iff_toNat]
  rintro ⟨-, h9⟩
  have h9A : '9'.toNat < 'A'.toNat := by decide
  rcases (Bool.or_eq_true _ _).mp h with ha | hu
  · have := le_toNat_of_isAlpha ha
    omega
  · obtain rfl : c = '_' := of_decide_eq_true hu
    revert h9
    decide

namespace Lexeme

/-- The lexeme can stand in front of `rest`. -/
def Stands (rest : List Char) : Lexeme → Prop
  | space text => text ≠ [] ∧ ∀ c ∈ text, c.isWhitespace
  | string body closed => '"' ∉ body ∧ (closed = false → rest = [])
  | number digits =>
    digits ≠ [] ∧ (∀ c ∈ digits, c.isDigit) ∧ ∀ c ∈ rest.head?, c.isDigit = false
  | word text => (∃ c cs, text = c :: cs ∧ isWordStart c ∧ ∀ d ∈ cs, isWordRest d) ∧
    ∀ c ∈ rest.head?, isWordRest c = false
  | arrow => True
  | mark c => isMark c ∨ c = '-' ∧ rest.head? ≠ some '>'
  | unknown c => c ≠ '"' ∧ c.isDigit = false ∧ isWordStart c = false ∧ c ≠ '-' ∧ isMark c = false ∧
    c.isWhitespace = false

/-- Whether a lexeme is white space. -/
def isSpace : Lexeme → Bool
  | space _ => true
  | _ => false

/-- The lexemes of a source that are not white space. -/
def solids (cs : List Char) : List Lexeme :=
  (cut cs).filter (!·.isSpace)

/-! ### Runs of characters -/

theorem takeWhile_append_of_head? {p : Char → Bool} {cs rest : List Char} (h : ∀ c ∈ cs, p c)
    (hr : ∀ c ∈ rest.head?, p c = false) : (cs ++ rest).takeWhile p = cs := by
  rw [List.takeWhile_append_of_pos h]
  rcases rest with _ | ⟨d, rest⟩
  · simp
  · simp [hr d rfl]

theorem dropWhile_append_of_head? {p : Char → Bool} {cs rest : List Char} (h : ∀ c ∈ cs, p c)
    (hr : ∀ c ∈ rest.head?, p c = false) : (cs ++ rest).dropWhile p = rest := by
  rw [List.dropWhile_append_of_pos h]
  rcases rest with _ | ⟨d, rest⟩
  · simp
  · simp [hr d rfl]

theorem head?_dropWhile_eq_false (p : Char → Bool) (cs : List Char) :
    ∀ c ∈ (cs.dropWhile p).head?, p c = false := by
  intro c hc
  have h := List.head?_dropWhile_not p cs
  rw [hc] at h
  simpa using h

theorem not_mem_of_forall {p : Char → Bool} {cs : List Char} {d : Char} (h : ∀ c ∈ cs, p c)
    (hd : p d = false) : d ∉ cs := by
  intro hmem
  have := h d hmem
  rw [hd] at this
  cases this

/-! ### The first lexeme stands in front of the rest -/

theorem stands_stringTail (cs : List Char) : (stringTail cs).1.Stands (stringTail cs).2 := by
  have hbody : '"' ∉ cs.takeWhile (· ≠ '"') := by
    intro h
    simpa using List.mem_takeWhile_imp h
  unfold stringTail
  split
  · exact ⟨hbody, fun _ => rfl⟩
  · exact ⟨hbody, fun h => by cases h⟩

theorem stands_minusTail (cs : List Char) : (minusTail cs).1.Stands (minusTail cs).2 := by
  unfold minusTail
  split
  · trivial
  · next h =>
    refine .inr ⟨rfl, fun hh => ?_⟩
    obtain ⟨rest, rfl⟩ := List.head?_eq_some_iff.mp hh
    exact h rest rfl

theorem stands_next (c : Char) (cs : List Char) : (next c cs).1.Stands (next c cs).2 := by
  have hrun : ∀ {p : Char → Bool} {d : Char}, d ∈ cs.takeWhile p → p d := fun h =>
    List.mem_takeWhile_imp h
  unfold next
  split
  · exact stands_stringTail cs
  split
  · next hc =>
    refine ⟨by simp, fun d hd => ?_, head?_dropWhile_eq_false _ cs⟩
    rcases List.mem_cons.mp hd with rfl | hd
    · exact hc
    · exact hrun hd
  split
  · next hc => exact ⟨⟨c, _, rfl, hc, fun d hd => hrun hd⟩, head?_dropWhile_eq_false _ cs⟩
  split
  · exact stands_minusTail cs
  split
  · next hc => exact .inl hc
  split
  · next hc =>
    refine ⟨by simp, fun d hd => ?_⟩
    rcases List.mem_cons.mp hd with rfl | hd
    · exact hc
    · exact hrun hd
  · next h1 h2 h3 h4 h5 h6 => simp_all [Stands]

/-! ### A lexeme that stands in front of the rest is cut off -/

theorem next_quote (cs : List Char) : next '"' cs = stringTail cs := if_pos rfl

theorem next_digit {c : Char} (h : c.isDigit) (cs : List Char) :
    next c cs = (number (c :: cs.takeWhile Char.isDigit), cs.dropWhile Char.isDigit) := by
  have hq : c ≠ '"' := by rintro rfl; revert h; decide
  rw [next, if_neg hq, if_pos h]

theorem next_wordStart {c : Char} (h : isWordStart c) (cs : List Char) :
    next c cs = (word (c :: cs.takeWhile isWordRest), cs.dropWhile isWordRest) := by
  have hq : c ≠ '"' := by rintro rfl; revert h; decide
  rw [next, if_neg hq, if_neg (by simp [isDigit_of_isWordStart h]), if_pos h]

theorem next_minus (cs : List Char) : next '-' cs = minusTail cs := by
  rw [next, if_neg (by decide), if_neg (by decide), if_neg (by decide), if_pos rfl]

theorem next_mark {c : Char} (h : isMark c) (cs : List Char) : next c cs = (mark c, cs) := by
  rcases isMark_iff.mp h with rfl | rfl | rfl <;>
    rw [next, if_neg (by decide), if_neg (by decide), if_neg (by decide), if_neg (by decide),
      if_pos (by decide)]

theorem next_space {c : Char} (h : c.isWhitespace) (cs : List Char) :
    next c cs = (space (c :: cs.takeWhile Char.isWhitespace), cs.dropWhile Char.isWhitespace) := by
  rcases isWhitespace_iff.mp h with rfl | rfl | rfl | rfl <;>
    rw [next, if_neg (by decide), if_neg (by decide), if_neg (by decide), if_neg (by decide),
      if_neg (by decide), if_pos (by decide)]

theorem ne_quote_of_mem {body : List Char} (h : '"' ∉ body) : ∀ c ∈ body, decide (c ≠ '"') := by
  intro c hc
  rw [decide_eq_true_eq]
  rintro rfl
  exact h hc

theorem stringTail_closed {body : List Char} (h : '"' ∉ body) (rest : List Char) :
    stringTail (body ++ '"' :: rest) = (string body true, rest) := by
  have hbody := ne_quote_of_mem h
  have hstop : ∀ c ∈ ('"' :: rest).head?, decide (c ≠ '"') = false := by simp
  unfold stringTail
  rw [takeWhile_append_of_head? hbody hstop, dropWhile_append_of_head? hbody hstop]

theorem stringTail_open {body : List Char} (h : '"' ∉ body) :
    stringTail body = (string body false, []) := by
  have hbody := ne_quote_of_mem h
  unfold stringTail
  rw [List.takeWhile_eq_self_iff.mpr hbody, List.dropWhile_eq_nil_iff.mpr hbody]

theorem minusTail_of_head?_ne {rest : List Char} (h : rest.head? ≠ some '>') :
    minusTail rest = (mark '-', rest) := by
  unfold minusTail
  split
  · simp at h
  · rfl

/-- **Cutting**: a lexeme other than white space that stands in front of `rest` is cut off first. -/
theorem cut_append {l : Lexeme} {rest : List Char} (h : l.Stands rest) (hs : l.isSpace = false) :
    cut (l.spelling ++ rest) = l :: cut rest := by
  cases l with
  | space text => cases hs
  | string body closed =>
    obtain ⟨hbody, hend⟩ := h
    cases closed with
    | true =>
      have hsp : (string body true).spelling ++ rest = '"' :: (body ++ '"' :: rest) := by
        simp [spelling]
      rw [hsp, cut_cons, next_quote, stringTail_closed hbody]
    | false =>
      obtain rfl := hend rfl
      have hsp : (string body false).spelling ++ [] = '"' :: body := by simp [spelling]
      rw [hsp, cut_cons, next_quote, stringTail_open hbody]
  | number digits =>
    obtain ⟨hne, hdigits, hstop⟩ := h
    obtain ⟨c, cs, rfl⟩ := List.exists_cons_of_ne_nil hne
    have hcs : ∀ d ∈ cs, d.isDigit := fun d hd => hdigits d (List.mem_cons_of_mem c hd)
    rw [spelling, List.cons_append, cut_cons, next_digit (hdigits c List.mem_cons_self),
      takeWhile_append_of_head? hcs hstop, dropWhile_append_of_head? hcs hstop]
  | word text =>
    obtain ⟨⟨c, cs, rfl, hc, hcs⟩, hstop⟩ := h
    rw [spelling, List.cons_append, cut_cons, next_wordStart hc,
      takeWhile_append_of_head? hcs hstop, dropWhile_append_of_head? hcs hstop]
  | arrow => rw [spelling, List.cons_append, cut_cons, next_minus]; rfl
  | mark c =>
    rcases h with hc | ⟨rfl, hstop⟩
    · rw [spelling, List.singleton_append, cut_cons, next_mark hc]
    · rw [spelling, List.singleton_append, cut_cons, next_minus, minusTail_of_head?_ne hstop]
  | unknown c =>
    obtain ⟨h1, h2, h3, h4, h5, h6⟩ := h
    have hnext : next c rest = (unknown c, rest) := by
      rw [next, if_neg h1, if_neg (by simp [h2]), if_neg (by simp [h3]), if_neg h4,
        if_neg (by simp [h5]), if_neg (by simp [h6])]
    rw [spelling, List.singleton_append, cut_cons, hnext]

/-! ### Solid lexemes -/

@[simp] theorem solids_nil : solids [] = [] := by simp [solids]

theorem solids_cons (c : Char) (cs : List Char) :
    solids (c :: cs) = if (next c cs).1.isSpace then solids (next c cs).2
      else (next c cs).1 :: solids (next c cs).2 := by
  unfold solids
  rw [cut_cons, List.filter_cons]
  cases (next c cs).1.isSpace <;> simp

theorem solids_append {l : Lexeme} {rest : List Char} (h : l.Stands rest) (hs : l.isSpace = false) :
    solids (l.spelling ++ rest) = l :: solids rest := by
  unfold solids
  rw [cut_append h hs, List.filter_cons, hs]
  rfl

theorem solids_dropWhile (cs : List Char) :
    solids (cs.dropWhile Char.isWhitespace) = solids cs := by
  rcases cs with _ | ⟨c, cs⟩
  · rfl
  by_cases hc : c.isWhitespace
  · rw [solids_cons, next_space hc, List.dropWhile_cons, if_pos hc]
    rfl
  · rw [List.dropWhile_cons, if_neg hc]

theorem solids_space_append {ws : List Char} (h : ∀ c ∈ ws, c.isWhitespace) (rest : List Char) :
    solids (ws ++ rest) = solids rest := by
  rw [← solids_dropWhile, List.dropWhile_append_of_pos h, solids_dropWhile]

theorem solids_spelling_append {l : Lexeme} {rest : List Char} (h : l.Stands rest) :
    solids (l.spelling ++ rest) = if l.isSpace then solids rest else l :: solids rest := by
  split
  · -- the run of white space may be a part of a longer one
    next hs =>
    cases l <;> simp only [isSpace, Bool.false_eq_true] at hs
    exact solids_space_append h.2 rest
  · next hs => exact solids_append h (by simpa using hs)

theorem lex_eq_filterMap_solids (s : String) :
    Token.lex s = (solids s.toList).filterMap token? := by
  unfold Token.lex solids
  rw [List.filterMap_filter]
  congr 1
  funext l
  cases l <;> rfl

theorem isUnterminated_eq_any_solids (s : String) :
    isUnterminated s = (solids s.toList).any isOpen := by
  unfold isUnterminated solids
  rw [List.any_filter]
  congr 1
  funext l
  cases l <;> rfl

end Lexeme

end Bagay
