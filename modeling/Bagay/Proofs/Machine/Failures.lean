import Bagay.Machine
import Bagay.Proofs.Kind
import Bagay.Proofs.Parser.Numbers
import Bagay.Proofs.Token.Layout

/-!
# Which failures can happen

A source fails in one of three ways: with an error of syntax, with a name that is not bound, or with
operands that do not match. The other failures need something that no source can bring about: a
number token that is not made of digits, an operator that the language does not have, a node at the
wrong place, or a statement asked for after the last token.

Tokens that come from elsewhere can hold any text as a number, so for them one more failure is left.

* `Failure.OfSource`: the three reasons; `run_result_cases`: a source fails for no other.
* `failures_are_closed`: the result.
-/

namespace Bagay

/-! ### Runs -/

/-- The failures that a source can have. -/
inductive Failure.OfSource : Failure → Prop
  | parse {e : ParseError} (h : e.IsSyntax) : OfSource (.parse e)
  | undefined (name : String) : OfSource (.fault (.undefined name))
  | mismatch (symbol : String) (left right : Node) : OfSource (.fault (.mismatch symbol left right))

/-- The statements of a program fault only at a name or at operands. -/
theorem ofSource_of_fault {b : Bindings} {ss : List Stmt} {f : Fault}
    (h : (execute b (ss.map Stmt.toNode)).fault = some f) : (Failure.fault f).OfSource := by
  induction ss generalizing b with
  | nil => cases h
  | cons s ss ih =>
    rcases hn : s.toNode.step b with g | ⟨b', t⟩
    · rw [List.map_cons, execute_of_error hn] at h
      cases h
      have hs := step_simulates_kindStep b s
      rw [hn] at hs
      obtain ⟨g, hg⟩ := hs.exists_shows
      cases hg with
      | undefined name => exact .undefined name
      | mismatch op x y => exact .mismatch _ _ _
    · rw [List.map_cons, execute_of_ok hn] at h
      exact ih h

theorem isReadable_of_mem_lex {s : String} {t : Token} (h : t ∈ Token.lex s) :
    t.IsReadable Numeral.read? := by
  obtain ⟨k, text⟩ := t
  rintro rfl
  obtain ⟨hne, hdigits⟩ : IsNumeral text.toList := wellFormed_of_mem_lex h
  exact Numeral.isSome_read?_of_isDigit hne hdigits

theorem isSyntax_of_program_lex {s : String} {e : ParseError} {rest : List Token} {n : Nat}
    (h : parsed s = ⟨.error e, rest, n⟩) : e.IsSyntax := by
  cases Parser.blames_program _ h with
  | token hn => exact hn.isSyntax
  | @number text taken hread hts =>
    have hmem : ⟨.number, text⟩ ∈ Token.lex s := by simp [hts]
    have := isReadable_of_mem_lex hmem rfl
    simp [hread] at this

/-- **Sources**: a run succeeds, or it fails for one of three reasons. -/
theorem run_result_cases (m : Machine) (verbose : Bool) (source : String) :
    (m.run verbose source).result = .ok none ∨
      ∃ f, (m.run verbose source).result = .error f ∧ f.OfSource := by
  rcases ho : parsed source with ⟨e | ss, rest, n⟩
  · rw [Machine.run_of_error (by rw [ho])]
    exact .inr ⟨_, rfl, .parse (isSyntax_of_program_lex ho)⟩
  · rw [Machine.run_of_ok (by rw [ho])]
    rcases hf : (execute m.bindings (ss.map Stmt.toNode)).fault with _ | f
    · exact .inl (Machine.result_exec_of_none hf)
    · exact .inr ⟨_, Machine.result_exec_of_some hf, ofSource_of_fault hf⟩

/-! ### Printing -/

theorem display_of_nan {x : Float} (h : Exact.ofFloat x = .nan) :
    (Value.number x).display = "nan" := by
  simp [Value.display, Decimal.display, h, Exact.integer?]

theorem display_of_infinite {x : Float} {negative : Bool}
    (h : Exact.ofFloat x = .infinite negative) :
    (Value.number x).display = Decimal.sign negative ++ "inf" := by
  simp [Value.display, Decimal.display, h, Exact.integer?]

/-- **Failures**: a run of a source, whatever the machine, succeeds or fails with an error of
syntax, an unbound name or a mismatch; a number is always printed, also if it is infinite or not a
number; and the parser, whatever the tokens, succeeds or fails with an error of syntax or a number
that cannot be read, the latter exactly if this number is the last token before its cursor. -/
theorem failures_are_closed :
    (∀ (m : Machine) (verbose : Bool) (source : String),
      (m.run verbose source).result = .ok none ∨
        ∃ f, (m.run verbose source).result = .error f ∧ f.OfSource) ∧
    (∀ (b : Bindings) (e : Node) (x : Float), e.eval b = .ok (.number x) →
      (Node.print e).step b = .ok (b, (Value.number x).display ++ "\n") ∧
      (Exact.ofFloat x = .nan → (Value.number x).display = "nan") ∧
      ∀ negative, Exact.ofFloat x = .infinite negative →
        (Value.number x).display = Decimal.sign negative ++ "inf") ∧
    ∀ (read : String → Option Float) (ts : List Token),
      let a := (Cursor.start ts).perform read .program
      let p := a.cursor.position
      ((∃ A, a.result = .ok (.program A)) ∨ (∃ e, a.result = .error e ∧ e.IsSyntax) ∨
        ∃ text, a.result = .error (.badNumber text)) ∧
      ∀ text, a.result = .error (.badNumber text) ↔
        1 ≤ p ∧ ts[p - 1]? = some ⟨.number, text⟩ ∧ read text = none := by
  refine ⟨run_result_cases, fun b e x h => ⟨step_print_of_ok h, display_of_nan,
    fun _ => display_of_infinite⟩, fun read ts => ?_⟩
  exact ⟨Cursor.program_result_cases read ts, fun text => Cursor.program_eq_badNumber_iff⟩

/-- A number token whose text has no digits after the letter of its power. -/
def badPower : List Token := [⟨.keyword, "ipakita"⟩, ⟨.number, "1e"⟩]

theorem failures_of_nan_and_badPower :
    (Node.print (.binary "-" (.number (1 / 0)) (.number (1 / 0)))).step ∅ = .ok (∅, "nan\n") ∧
    ((Cursor.start badPower).perform Numeral.read? .program).cursor.position = 2 ∧
    ((Cursor.start badPower).perform Numeral.read? .program).result =
      .error (.badNumber "1e") := by
  obtain ⟨-, hprint, hparse⟩ := failures_are_closed
  have heval : (Node.binary "-" (.number (1 / 0)) (.number (1 / 0))).eval ∅ =
      .ok (.number (1 / 0 - 1 / 0)) := by rfl
  obtain ⟨hstep, hnan, -⟩ := hprint ∅ _ _ heval
  have ho : Parser.program Numeral.read? badPower = ⟨.error (.badNumber "1e"), [], 0⟩ := by
    rw [badPower, Parser.program_cons]
    exact Parser.bind_of_error rfl
  have hp : ((Cursor.start badPower).perform Numeral.read? .program).cursor.position = 2 :=
    (Cursor.perform_start_program (List.append_nil _).symm ho).2
  have hread : Numeral.read? "1e" = none := by decide
  refine ⟨?_, hp, ?_⟩
  · rw [hstep, hnan (by decide)]
    rfl
  · refine ((hparse Numeral.read? badPower).2 "1e").mpr ?_
    rw [hp]
    exact ⟨by decide, rfl, hread⟩

end Bagay
