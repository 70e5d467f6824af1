import Bagay.Machine
import Bagay.Proofs.Token.Munch

/-!
# Line breaks

Lines may end with a line feed, or with a carriage return and a line feed. Putting a carriage return
in front of every line feed of a source changes its string literals, which are taken as they are,
and nothing else: between two lexemes both characters are white space, and neither of them continues
a number, a word or a minus sign.

So the two sources are cut in step. A lexeme that stands in front of `rest` stands, with its own
line feeds changed, in front of `rest` with the line feeds changed (`Lexeme.Stands.crlf`), and the
solid lexemes follow by induction on the cut (`Lexeme.solids_crlf`).

* `Text.crlf`: the change of a text; `Token.crlf`: of a token.
* `lex_crlf`, `isUnterminated_crlf`: what the lexer makes of the changed source.
* `crlf_changes_strings_only`: the result.
-/

namespace Bagay

/-- The characters with a carriage return in front of each line feed. -/
def Text.crlfChars (cs : List Char) : List Char :=
  cs.flatMap fun c => if c = '\n' then ['\r', '\n'] else [c]

/-- The text with a carriage return in front of each line feed. -/
def Text.crlf (s : String) : String := String.ofList (crlfChars s.toList)

/-- The token with a carriage return in front of each line feed, if it is a string. -/
def Token.crlf (t : Token) : Token :=
  if t.kind = .string then ⟨.string, Text.crlf t.text⟩ else t

namespace Text

variable {cs : List Char} {c : Char}

@[simp] theorem crlfChars_nil : crlfChars [] = [] := rfl

theorem crlfChars_append (cs ds : List Char) :
    crlfChars (cs ++ ds) = crlfChars cs ++ crlfChars ds :=
  List.flatMap_append

theorem crlfChars_cons_lineFeed (cs : List Char) :
    crlfChars ('\n' :: cs) = '\r' :: '\n' :: crlfChars cs := rfl

theorem crlfChars_cons_of_ne (h : c ≠ '\n') (cs : List Char) :
    crlfChars (c :: cs) = c :: crlfChars cs := by
  unfold crlfChars
  rw [List.flatMap_cons, if_neg h, List.singleton_append]

theorem crlfChars_eq_self (h : '\n' ∉ cs) : crlfChars cs = cs := by
  induction cs with
  | nil => rfl
  | cons c cs ih =>
    rw [List.mem_cons, not_or] at h
    rw [crlfChars_cons_of_ne (Ne.symm h.1), ih h.2]

theorem crlf_eq_self {s : String} (h : '\n' ∉ s.toList) : crlf s = s := by
  rw [crlf, crlfChars_eq_self h, String.ofList_toList]

theorem mem_of_mem_crlfChars (h : c ∈ crlfChars cs) : c ∈ cs ∨ c = '\r' := by
  obtain ⟨d, hd, hc⟩ := List.mem_flatMap.mp h
  split at hc
  · next hnl =>
    subst hnl
    rcases List.mem_cons.mp hc with rfl | hc
    · exact .inr rfl
    · obtain rfl := List.mem_singleton.mp hc
      exact .inl hd
  · obtain rfl := List.mem_singleton.mp hc
    exact .inl hd

theorem head?_crlfChars (h : (crlfChars cs).head? = some c) : cs.head? = some c ∨ c = '\r' := by
  rcases cs with _ | ⟨d, cs⟩
  · cases h
  by_cases hd : d = '\n'
  · subst hd
    rw [crlfChars_cons_lineFeed] at h
    cases h
    exact .inr rfl
  · rw [crlfChars_cons_of_ne hd] at h
    exact .inl h

theorem crlfChars_ne_nil (h : cs ≠ []) : crlfChars cs ≠ [] := by
  obtain ⟨c, cs, rfl⟩ := List.exists_cons_of_ne_nil h
  by_cases hc : c = '\n'
  · subst hc
    simp [crlfChars_cons_lineFeed]
  · simp [crlfChars_cons_of_ne hc]

end Text

open Text

namespace Lexeme

variable {l : Lexeme} {rest : List Char}

/-- The lexeme with a carriage return in front of each line feed. -/
def crlf : Lexeme → Lexeme
  | space text => space (crlfChars text)
  | string body closed => string (crlfChars body) closed
  | l => l

theorem isSpace_crlf (l : Lexeme) : l.crlf.isSpace = l.isSpace := by
  cases l <;> rfl

theorem isOpen_crlf (l : Lexeme) : l.crlf.isOpen = l.isOpen := by
  cases l <;> rfl

theorem token?_crlf (l : Lexeme) : l.crlf.token? = l.token?.map Token.crlf := by
  cases l with
  | string body closed => simp [crlf, token?, Token.crlf, Text.crlf]
  | word text =>
    have hkind : (Token.ofWord (String.ofList text)).kind ≠ .string := by
      rcases Token.kind_ofWord (String.ofList text) with hw | hw <;> simp [hw]
    simp [crlf, token?, Token.crlf, hkind]
  | _ => rfl

/-! ### Cutting both sources in step -/

theorem Stands.spelling_crlf (h : l.Stands rest) : l.crlf.spelling = crlfChars l.spelling := by
  cases l with
  | space text => rfl
  | string body closed =>
    have hquote : crlfChars (if closed then ['"'] else []) = if closed then ['"'] else [] := by
      cases closed <;> rfl
    simp only [crlf, spelling, crlfChars_cons_of_ne (show '"' ≠ '\n' by decide), crlfChars_append,
      hquote]
  | number digits => exact (crlfChars_eq_self (not_mem_of_forall h.2.1 (by decide))).symm
  | word text =>
    obtain ⟨⟨c, cs, rfl, hc, hcs⟩, -⟩ := h
    have hne : c ≠ '\n' := by rintro rfl; revert hc; decide
    have hself := crlfChars_eq_self (not_mem_of_forall hcs (by decide))
    simp only [crlf, spelling, crlfChars_cons_of_ne hne, hself]
  | arrow => rfl
  | mark c =>
    have hne : c ≠ '\n' := by
      rcases h with hc | ⟨rfl, -⟩
      · rintro rfl; revert hc; decide
      · decide
    simp only [crlf, spelling, crlfChars_cons_of_ne hne, crlfChars_nil]
  | unknown c =>
    have hne : c ≠ '\n' := by
      rintro rfl
      have := h.2.2.2.2.2
      revert this
      decide
    simp only [crlf, spelling, crlfChars_cons_of_ne hne, crlfChars_nil]

/-- What does not start with a character of some kind does not start with one after the change. -/
theorem head?_crlfChars_eq_false {p : Char → Bool} (h : ∀ c ∈ rest.head?, p c = false)
    (hp : p '\r' = false) : ∀ c ∈ (crlfChars rest).head?, p c = false := by
  intro c hc
  rcases head?_crlfChars hc with hc | rfl
  · exact h c hc
  · exact hp

/-- **In step**: the changed lexeme stands in front of the changed rest. -/
theorem Stands.crlf (h : l.Stands rest) : l.crlf.Stands (crlfChars rest) := by
  cases l with
  | space text =>
    refine ⟨crlfChars_ne_nil h.1, fun c hc => ?_⟩
    rcases mem_of_mem_crlfChars hc with hc | rfl
    · exact h.2 c hc
    · decide
  | string body closed =>
    refine ⟨fun hc => ?_, fun hclosed => ?_⟩
    · rcases mem_of_mem_crlfChars hc with hc | hc
      · exact h.1 hc
      · revert hc
        decide
    · rw [h.2 hclosed, crlfChars_nil]
  | number digits => exact ⟨h.1, h.2.1, head?_crlfChars_eq_false h.2.2 (by decide)⟩
  | word text => exact ⟨h.1, head?_crlfChars_eq_false h.2 (by decide)⟩
  | arrow => trivial
  | mark c =>
    refine h.imp_right fun ⟨hc, hrest⟩ => ⟨hc, fun hhead => ?_⟩
    rcases head?_crlfChars hhead with hhead | hhead
    · exact hrest hhead
    · revert hhead
      decide
  | unknown c => exact h

theorem solids_crlf (cs : List Char) : solids (crlfChars cs) = (solids cs).map crlf := by
  fun_induction cut cs with
  | case1 => simp
  | case2 c cs ih =>
    have hstands := stands_next c cs
    rw [← spelling_next c cs, crlfChars_append, ← hstands.spelling_crlf,
      solids_spelling_append hstands.crlf, solids_spelling_append hstands, isSpace_crlf, ih]
    split <;> rfl

end Lexeme

/-! ### Tokens and runs -/

theorem lex_crlf (s : String) : Token.lex (Text.crlf s) = (Token.lex s).map Token.crlf := by
  rw [Lexeme.lex_eq_filterMap_solids, Lexeme.lex_eq_filterMap_solids, Text.crlf,
    String.toList_ofList, Lexeme.solids_crlf, List.filterMap_map, List.map_filterMap]
  congr 1
  funext l
  exact l.token?_crlf

theorem isUnterminated_crlf (s : String) : isUnterminated (Text.crlf s) = isUnterminated s := by
  rw [Lexeme.isUnterminated_eq_any_solids, Lexeme.isUnterminated_eq_any_solids, Text.crlf,
    String.toList_ofList, Lexeme.solids_crlf, List.any_map]
  congr 1
  funext l
  exact l.isOpen_crlf

/-- A run sees nothing of a source but its tokens and whether a string literal is open. -/
theorem Machine.run_eq_of_lex_eq {s t : String} (hlex : Token.lex s = Token.lex t)
    (hopen : isUnterminated s = isUnterminated t) (m : Machine) (verbose : Bool) :
    m.run verbose s = m.run verbose t := by
  simp only [run, parsed, lexRecords, hlex, hopen]

theorem Token.crlf_eq_self {t : Token} (h : t.kind = .string → '\n' ∉ t.text.toList) :
    t.crlf = t := by
  unfold crlf
  split
  · next hk =>
    rw [Text.crlf_eq_self (h hk), ← hk]
  · rfl

/-- **Line breaks**: with a carriage return in front of each line feed, a source has the tokens that
it had, except that the texts of its strings are changed in the same way, and the lexer makes the
same records. If no string literal has a line feed, then the tokens, what the parser does, and the
reports of all runs are the same. -/
theorem crlf_changes_strings_only (s : String) :
    Token.lex (Text.crlf s) = (Token.lex s).map Token.crlf ∧
    lexRecords (Text.crlf s) = lexRecords s ∧
    ((∀ t ∈ Token.lex s, t.kind = .string → '\n' ∉ t.text.toList) →
      Token.lex (Text.crlf s) = Token.lex s ∧
      (∀ read, Parser.program read (Token.lex (Text.crlf s)) =
        Parser.program read (Token.lex s)) ∧
      ∀ (m : Machine) (verbose : Bool), m.run verbose (Text.crlf s) = m.run verbose s) := by
  refine ⟨lex_crlf s, ?_, fun h => ?_⟩
  · simp only [lexRecords, isUnterminated_crlf]
  · have hlex : Token.lex (Text.crlf s) = Token.lex s := by
      rw [lex_crlf, List.map_congr_left fun t ht => Token.crlf_eq_self (h t ht), List.map_id']
    exact ⟨hlex, fun read => by rw [hlex],
      Machine.run_eq_of_lex_eq hlex (isUnterminated_crlf s)⟩

/-- Line feeds behind a name, a minus sign and a carriage return, and a string literal with a
carriage return in it. -/
def mixedBreaks : String := "bagay x\n-> teksto = \"a\rb\"\r\nipakita x -\nx"

theorem mixedBreaks_run_alike :
    (∀ t ∈ Token.lex mixedBreaks, t.kind = .string → '\n' ∉ t.text.toList) ∧
    Text.crlf mixedBreaks = "bagay x\r\n-> teksto = \"a\rb\"\r\r\nipakita x -\r\nx" ∧
    ((Machine.fresh none).run false (Text.crlf mixedBreaks)).result =
      .error (.fault (.mismatch "-" (.value (.text "a\rb")) (.value (.text "a\rb")))) := by
  have hstrings : ∀ t ∈ Token.lex mixedBreaks, t.kind = .string → '\n' ∉ t.text.toList := by
    decide +kernel
  have hparsed : (parsed mixedBreaks).result = .ok
      [.declare "x" "teksto" (.text "a\rb"), .print (.binary .sub (.name "x") (.name "x"))] := by
    decide +kernel
  obtain ⟨-, -, hsame⟩ := crlf_changes_strings_only mixedBreaks
  refine ⟨hstrings, by decide +kernel, ?_⟩
  rw [(hsame hstrings).2.2, Machine.run_of_ok hparsed]
  rfl

end Bagay
