import Bagay.Proofs.Cursor.Window
import Bagay.Proofs.Parser.Numbers
import Mathlib.Tactic.Common

/-!
# How requests fail

Whatever is asked at a cursor, and wherever the cursor stands, a request that fails does so with an
error of syntax, and the message names the token at which the cursor stands afterwards, or the end
of the input. This holds of tokens whose numbers can be read; all other tokens are free.

There is a single exception: a statement asked for after the last token. The choice between the two
statements looks at the text of the current token, also if there is none, and so it fails in a way
of its own. Declarations and print statements, asked for at the same place, name the end of the
input.

* `blames_routine`: the routine of a request fails as its parts do, the exception apart.
* `failing_requests_name_the_token`: the result; `some_request_fails_otherwise`: the exception.
-/

namespace Bagay

open Bagay.Parser

namespace Cursor

variable {read : String → Option Float} {c : Cursor}

/-! ### The routine of a request -/

theorem blaming_peek {α : Type} (g : Option Token → α) : Blaming read (peek g : Parser α) :=
  blaming_single nofun fun _ _ h => by cases h

/-- The routine of a request fails at the token that it leaves, or at a number. -/
theorem blames_routine {q : Request} {ts : List Token} (h : q = .statement → ts ≠ []) :
    Blames read (q.routine read) ts := by
  by_cases hq : q = .statement
  · subst hq
    obtain ⟨t, us, rfl⟩ := List.exists_cons_of_ne_nil (h rfl)
    exact (blames_statement t us).bind (advances_statement read).forward fun _ _ _ _ =>
      (blaming_pure _).blames _
  · exact ((compositional_blaming read).routine blaming_peek
      ⟨forward_program read, blames_program⟩ fun hs => absurd hs hq).blames ts

/-! ### Requests -/

/-- A statement asked for after the last token is the only request that fails in this way. -/
theorem perform_eq_noStatement_iff (c : Cursor) (q : Request) :
    (c.perform read q).result = .error .noStatement ↔
      q = .statement ∧ c.position = c.tokens.length := by
  have hlen := c.length_rest
  have hle := c.position_le
  constructor
  · intro h
    by_contra hq
    have hblames : Blames read (q.routine read) c.rest := by
      refine blames_routine fun hs hnil => hq ⟨hs, ?_⟩
      rw [hnil, List.length_nil] at hlen
      omega
    rw [perform_eq_run] at h
    rcases ho : q.routine read c.rest with ⟨e | a, rest, n⟩
    · simp only [run, ho, Except.map, Except.error.injEq] at h
      subst h
      cases hblames ho with
      | token hn => cases hn
    · simp [run, ho, Except.map] at h
  · rintro ⟨rfl, hend⟩
    have hnil : c.rest = [] := List.length_eq_zero_iff.mp (by omega)
    rw [perform_statement, run, hnil]
    rfl

/-- The token of an error is the one at the cursor. -/
theorem names_of_perform_error (hread : ∀ t ∈ c.tokens, t.IsReadable read) {q : Request}
    {e : ParseError} (h : (c.perform read q).result = .error e) (he : e ≠ .noStatement) :
    e.Names c.tokens[(c.perform read q).cursor.position]? := by
  have hfw := (singleLookahead_routine read q).forward
  have hq : q = .statement → c.rest ≠ [] := by
    rintro rfl hnil
    rw [perform_statement, run, hnil] at h
    cases h
    exact he rfl
  rcases ho : q.routine read c.rest with ⟨r, rest, n⟩
  have hrest : (c.perform read q).cursor.rest = rest := by
    rw [perform_eq_run, rest_run hfw, ho]
  have hhead : rest.head? = c.tokens[(c.perform read q).cursor.position]? := by
    rw [← hrest]
    exact (current_rest _).trans (by rw [perform_eq_run]; rfl)
  obtain rfl : r = .error e := by
    rw [perform_eq_run] at h
    cases r <;> simp_all [run, Except.map]
  cases blames_routine hq ho with
  | token hn => exact hhead ▸ hn
  | @number text taken hnone hts =>
    have hmem : ⟨.number, text⟩ ∈ c.rest := by simp [hts]
    have := hread _ (List.mem_of_mem_drop hmem) rfl
    simp [hnone] at this

end Cursor

/-- **Violations**: on tokens whose numbers can be read, every request at every cursor is answered,
or fails with an error of syntax whose message ends with the token at the cursor afterwards, or with
the end of the input, and with the file. A statement asked for after the last token is the only
exception. -/
theorem failing_requests_name_the_token (read : String → Option Float) (c : Cursor)
    (hread : ∀ t ∈ c.tokens, t.IsReadable read) (q : Cursor.Request) (file : Option String) :
    let a := c.perform read q
    let p := a.cursor.position
    (a.result = .error .noStatement ↔ q = .statement ∧ c.position = c.tokens.length) ∧
    (a.result = .error .noStatement ∨ (∃ r, a.result = .ok r) ∨
      ∃ e, a.result = .error e ∧ e.IsSyntax ∧
        (∀ h : p < c.tokens.length, ∃ m, e.message file =
          m ++ ("'" ++ c.tokens[p].text ++ "' in " ++ file.getD "None")) ∧
        (p = c.tokens.length → ∃ m, e.message file =
          m ++ ("end of input in " ++ file.getD "None"))) := by
  intro a p
  refine ⟨c.perform_eq_noStatement_iff q, ?_⟩
  rcases hr : a.result with e | r
  · by_cases he : e = .noStatement
    · exact .inl (congrArg _ he)
    have hnames := Cursor.names_of_perform_error hread hr he
    refine .inr (.inr ⟨e, rfl, hnames.isSyntax, fun hlt => ?_, fun hend => ?_⟩)
    · rw [List.getElem?_eq_getElem hlt] at hnames
      exact hnames.message_some file
    · rw [List.getElem?_eq_none (Nat.le_of_eq hend.symm)] at hnames
      exact hnames.message_none file
  · exact .inr (.inl ⟨r, rfl⟩)

/-- The cursor in front of a print statement without its expression. -/
def barePrint : Cursor := .start [⟨.keyword, "ipakita"⟩]

theorem statement_at_barePrint_names_the_end :
    (∀ t ∈ barePrint.tokens, t.IsReadable Numeral.read?) ∧
    (barePrint.perform Numeral.read? .statement).cursor.position = 1 ∧
    ∃ e, (barePrint.perform Numeral.read? .statement).result = .error e ∧ e.IsSyntax ∧
      ∃ m, e.message (some "a.hry") = m ++ "end of input in a.hry" := by
  have hread : ∀ t ∈ barePrint.tokens, t.IsReadable Numeral.read? := by
    simp [barePrint, Cursor.start, Token.IsReadable]
  have hs : Parser.statement Numeral.read? ([⟨.keyword, "ipakita"⟩] : List Token) =
      ⟨.error (.unexpected none), [], 0⟩ := rfl
  have hresult : (barePrint.perform Numeral.read? .statement).result =
      .error (.unexpected none) := by
    simp only [barePrint, Cursor.perform_statement, Cursor.run, Cursor.rest_start, hs]
    rfl
  have hposition : (barePrint.perform Numeral.read? .statement).cursor.position = 1 := by
    simp only [barePrint, Cursor.perform_statement, Cursor.run, Cursor.rest_start, hs]
    rfl
  obtain ⟨-, h | ⟨r, h⟩ | ⟨e, h, he, -, hend⟩⟩ :=
    failing_requests_name_the_token Numeral.read? barePrint hread .statement (some "a.hry")
  · rw [hresult] at h
    cases h
  · rw [hresult] at h
    cases h
  · exact ⟨hread, hposition, e, h, he, hend (by rw [hposition]; rfl)⟩

/-- A statement asked for after the last token does not name the end of the input. -/
theorem some_request_fails_otherwise : ¬ ∀ (c : Cursor) (q : Cursor.Request),
    (∀ t ∈ c.tokens, t.IsReadable Numeral.read?) →
      (∃ r, (c.perform Numeral.read? q).result = .ok r) ∨
        ∃ e, (c.perform Numeral.read? q).result = .error e ∧ e.IsSyntax := by
  intro h
  have hresult : ((Cursor.start []).perform Numeral.read? .statement).result =
      .error .noStatement := (Cursor.perform_eq_noStatement_iff _ _).mpr ⟨rfl, rfl⟩
  rcases h (.start []) .statement (by simp [Cursor.start]) with ⟨r, hr⟩ | ⟨e, he, hsyntax⟩
  · rw [hresult] at hr
    cases hr
  · rw [hresult] at he
    cases he
    cases hsyntax

end Bagay
