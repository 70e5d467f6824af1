import Bagay.Machine
import Bagay.Proofs.Execution
import Bagay.Proofs.Parser.Acceptance
import Bagay.Proofs.Token.Seam

/-!
# Two sources as one

Two sources run one after the other on a machine do what the single source does that has both of
them with white space in between. All three stages take part: the tokens stay apart, since the white
space separates and the first source leaves no string literal open; the statements stay apart, since
each starts with a keyword, also if the semicolon between them is missing; and the execution of the
second part starts from the bindings that the first one reached.

* `program_lex_append`: the statements of the two sources, one after the other.
* `Machine.exec_append`: their execution.
* `run_append_eq_runs`: the result.
-/

namespace Bagay

theorem program_lex_append {read : String → Option Float} {s w t : String} {A B : List Stmt}
    (hs : Even (quotes s)) (hw : IsSpacing w) (hne : w ≠ "")
    (hA : (Parser.program read (Token.lex s)).result = .ok A)
    (hB : (Parser.program read (Token.lex t)).result = .ok B) :
    (Parser.program read (Token.lex (s ++ w ++ t))).result = .ok (A ++ B) := by
  have hspelled := (Parser.spelled_of_result_eq_ok hA).append (Parser.spelled_of_result_eq_ok hB)
  rw [lex_append_spacing_append hs hw hne, Parser.program_complete hspelled]

/-- Nodes after nodes that have no fault are executed on the machine that these leave. -/
theorem Machine.exec_append {m : Machine} {ns : List Node}
    (h : (execute m.bindings ns).fault = none) (ms : List Node) :
    m.exec (ns ++ ms) =
      { machine := ((m.exec ns).machine.exec ms).machine
        result := ((m.exec ns).machine.exec ms).result
        output := (m.exec ns).output ++ ((m.exec ns).machine.exec ms).output
        records := (m.exec ns).records ++ ((m.exec ns).machine.exec ms).records } := by
  simp only [exec, execute_append h, List.map_append]

/-- **Batches**: a source, then white space, then another source is run as the two sources one after
the other, if the first has closed all its string literals and runs without a failure. -/
theorem run_append_eq_runs (m : Machine) (verbose : Bool) {s w t : String} {A B : List Stmt}
    (hw : IsSpacing w) (hne : w ≠ "") (hquotes : Even (quotes s))
    (hA : (parsed s).result = .ok A)
    (hB : (parsed t).result = .ok B)
    (hrun : (m.run verbose s).result = .ok none) :
    let first := m.run verbose s
    let second := first.machine.run verbose t
    let both := m.run verbose (s ++ w ++ t)
    (parsed (s ++ w ++ t)).result = .ok (A ++ B) ∧
      both.result = second.result ∧ both.machine = second.machine ∧
        both.output = first.output ++ second.output := by
  intro first second both
  have hAB := program_lex_append hquotes hw hne hA hB
  have hfault : (execute m.bindings (A.map Stmt.toNode)).fault = none := by
    rw [Machine.run_of_ok hA] at hrun
    rcases hf : (execute m.bindings (A.map Stmt.toNode)).fault with _ | f
    · rfl
    · rw [Machine.result_exec_of_some hf] at hrun
      cases hrun
  refine ⟨hAB, ?_, ?_, ?_⟩ <;>
    simp only [both, second, first, Machine.run_of_ok hA, Machine.run_of_ok hB,
      Machine.run_of_ok hAB, List.map_append, Machine.exec_append hfault]

/-- A declaration without a semicolon. -/
def bareDeclaration : String := "bagay x -> teksto = \"a\""

/-- A name that is bound, then one that is not. -/
def printTwoNames : String := "ipakita x; ipakita y"

theorem run_bareDeclaration_append_printTwoNames :
    ((Machine.fresh none).run false bareDeclaration).result = .ok none ∧
    ((Machine.fresh none).run false (bareDeclaration ++ "\r\n" ++ printTwoNames)).result =
      .error (.fault (.undefined "y")) ∧
    ((Machine.fresh none).run false (bareDeclaration ++ "\r\n" ++ printTwoNames)).output =
      "a\n" := by
  have hs : Token.lex bareDeclaration = [⟨.keyword, "bagay"⟩, ⟨.identifier, "x"⟩, ⟨.operator, "->"⟩,
      ⟨.keyword, "teksto"⟩, ⟨.operator, "="⟩, ⟨.string, "a"⟩] := by
    decide +kernel
  have ht : Token.lex printTwoNames = [⟨.keyword, "ipakita"⟩, ⟨.identifier, "x"⟩, ⟨.operator, ";"⟩,
      ⟨.keyword, "ipakita"⟩, ⟨.identifier, "y"⟩] := by
    decide +kernel
  have hspelled : Program.Spelled Numeral.read? [.declare "x" "teksto" (.text "a")] 1
      (Token.lex bareDeclaration) := by
    rw [hs]
    exact .bare (.declare "x" (.inl rfl) (.operand (.text "a"))) .nil
  have hspelled' : Program.Spelled Numeral.read? [.print (.name "x"), .print (.name "y")] 1
      (Token.lex printTwoNames) := by
    rw [ht]
    exact .closed (.print (.operand (.name "x"))) (.bare (.print (.operand (.name "y"))) .nil)
  have hA := congrArg Outcome.result (Parser.program_complete hspelled)
  have hB := congrArg Outcome.result (Parser.program_complete hspelled')
  have hrun : ((Machine.fresh none).run false bareDeclaration).result = .ok none := by
    rw [Machine.run_of_ok hA]
    rfl
  have hw : IsSpacing "\r\n" := by decide
  obtain ⟨-, hresult, -, houtput⟩ := run_append_eq_runs (Machine.fresh none) false hw (by decide)
    (by decide) hA hB hrun
  refine ⟨hrun, ?_, ?_⟩
  · rw [hresult, Machine.run_of_ok hA, Machine.run_of_ok hB]
    rfl
  · rw [houtput, Machine.run_of_ok hA, Machine.run_of_ok hB]
    rfl

end Bagay
