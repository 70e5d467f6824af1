import Bagay.Machine
import Bagay.Proofs.Execution
import Bagay.Proofs.Parser.Acceptance
import Bagay.Proofs.Token.Seam

/-!
# The log of a run

A run goes through its stages one after the other, and so does its log: first what the lexer notes,
then what the parser notes, then the listing of tokens and statements, and at last one line for each
statement that is started. If the source does not parse, the log ends with the lines of the parser;
if a statement fails, it ends with the line of this statement. The setting that asks for the listing
changes nothing else.

* `Log`: the lines of a log by stage; `Log.IsOf`: the log that a source has to have, said without
  running it: by its quotes, its spelling and its first failing statement.
* `map_line_lexRecords`, `map_line_records`, `map_line_listing_of_silent`,
  `map_line_listing_of_verbose`, `map_line_started_of_not_failsAt`, `map_line_started_of_failsAt`:
  the lines of each stage.
* `Machine.run_eq_of_verbose`: with and without a listing, a run differs in its records only.
* `log_goes_stage_by_stage`: the result.
-/

namespace Bagay

/-- A line of a log: the stage, the level and the message of a record. -/
def Record.line (r : Record) : Stage × Level × String := (r.stage, r.level, r.message)

/-- The lines of a log, by the stage that wrote them. -/
structure Log where
  lexer : List (Stage × Level × String)
  parser : List (Stage × Level × String)
  listing : List (Stage × Level × String)
  machine : List (Stage × Level × String)

namespace Log

/-- All lines in order. -/
def lines (l : Log) : List (Stage × Level × String) :=
  l.lexer ++ l.parser ++ l.listing ++ l.machine

/-- The line of a statement that is started. -/
def startLine (s : Stmt) : Stage × Level × String :=
  (.machine, .debug, "Executing " ++ s.toNode.written)

/-- The log that a source has, for a setting. -/
structure IsOf (l : Log) (setting : Option String) (source : String) : Prop where
  /-- One warning, if the number of quotes is odd. -/
  lexer_eq : l.lexer = if Odd (quotes source) then
    [(.lexer, .warning, "Unterminated string literal absorbed to end of input")] else []
  /-- One warning for each semicolon that the parser misses. -/
  parser_eq : l.parser = List.replicate (parsed source).missing
    (.parser, .warning, "Semicolon not found at the end of the statement.")
  /-- If the source parses, there are as many as statements without a semicolon. -/
  spelled : ∀ A, (parsed source).result = .ok A →
    Program.Spelled Numeral.read? A l.parser.length (Token.lex source)
  /-- If the source does not parse, this is all. -/
  of_error : ∀ e, (parsed source).result = .error e → l.listing = [] ∧ l.machine = []
  /-- Without a setting, or with an empty one, nothing is listed. -/
  listing_of_silent : setting = none ∨ setting = some "" → l.listing = []
  /-- With any other setting, the tokens and the statements are listed, a line each. -/
  listing_of_verbose : ∀ A, (parsed source).result = .ok A → setting ≠ none →
    setting ≠ some "" → l.listing =
      [(.run, .info, "Tokens: " ++ Text.bracketed ((Token.lex source).map Token.written)),
        (.run, .info, "AST: " ++ Text.bracketed (A.map fun s => s.toNode.written))]
  /-- If no statement fails, all of them are started. -/
  machine_of_not_failsAt : ∀ A, (parsed source).result = .ok A →
    (∀ k, ¬ FailsAt ∅ (A.map Stmt.toNode) k) → l.machine = A.map startLine
  /-- The first one that fails is the last one started. -/
  machine_of_failsAt : ∀ A, (parsed source).result = .ok A →
    ∀ k, FailsAt ∅ (A.map Stmt.toNode) k → l.machine = (A.take (k + 1)).map startLine

end Log

/-! ### The lines of each stage -/

theorem map_line_lexRecords (source : String) : (lexRecords source).map Record.line =
    if Odd (quotes source) then
      [(.lexer, .warning, "Unterminated string literal absorbed to end of input")] else [] := by
  unfold lexRecords
  by_cases h : Odd (quotes source)
  · rw [if_pos h, if_pos ((isUnterminated_iff_odd source).mpr h)]
    rfl
  · rw [if_neg h, if_neg fun hu => h ((isUnterminated_iff_odd source).mp hu)]
    rfl

theorem map_line_records {σ α : Type} (o : Outcome σ α) : o.records.map Record.line =
    List.replicate o.missing
      (.parser, .warning, "Semicolon not found at the end of the statement.") := by
  unfold Outcome.records
  rw [List.map_replicate]
  rfl

section Listing

variable {setting : Option String}

theorem isVerbose_iff : isVerbose setting ↔ setting ≠ none ∧ setting ≠ some "" := by
  cases setting <;> simp [isVerbose]

theorem map_line_listing_of_silent (h : setting = none ∨ setting = some "") (ts : List Token)
    (A : List Stmt) : (Machine.listing (isVerbose setting) ts A).map Record.line = [] := by
  have hv : ¬ isVerbose setting := by
    intro hv
    obtain ⟨hnone, hempty⟩ := isVerbose_iff.mp hv
    exact h.elim hnone hempty
  unfold Machine.listing
  rw [if_neg hv, List.map_nil]

theorem map_line_listing_of_verbose (hnone : setting ≠ none) (hempty : setting ≠ some "")
    (ts : List Token) (A : List Stmt) :
    (Machine.listing (isVerbose setting) ts A).map Record.line =
      [(.run, .info, "Tokens: " ++ Text.bracketed (ts.map Token.written)),
        (.run, .info, "AST: " ++ Text.bracketed (A.map fun s => s.toNode.written))] := by
  unfold Machine.listing
  rw [if_pos (isVerbose_iff.mpr ⟨hnone, hempty⟩)]
  rfl

end Listing

section Started

variable {b : Bindings} {A : List Stmt}

theorem map_line_executing (A : List Stmt) :
    ((A.map Stmt.toNode).map Record.executing).map Record.line = A.map Log.startLine := by
  rw [List.map_map, List.map_map]
  rfl

theorem map_line_started_of_not_failsAt (h : ∀ k, ¬ FailsAt b (A.map Stmt.toNode) k) :
    ((execute b (A.map Stmt.toNode)).started.map Record.executing).map Record.line =
      A.map Log.startLine := by
  rw [started_of_not_failsAt h, map_line_executing]

theorem map_line_started_of_failsAt {k : Nat} (h : FailsAt b (A.map Stmt.toNode) k) :
    ((execute b (A.map Stmt.toNode)).started.map Record.executing).map Record.line =
      (A.take (k + 1)).map Log.startLine := by
  rw [started_of_failsAt h, ← List.map_take, map_line_executing]

end Started

/-- **The listing**: a run does the same whether it lists its tokens and statements or not. -/
theorem Machine.run_eq_of_verbose (m : Machine) (v w : Bool) (source : String) :
    (m.run v source).result = (m.run w source).result ∧
      (m.run v source).machine = (m.run w source).machine ∧
        (m.run v source).output = (m.run w source).output := by
  rcases h : (parsed source).result with e | A
  · rw [run_of_error h, run_of_error h]
    exact ⟨rfl, rfl, rfl⟩
  · rw [run_of_ok h, run_of_ok h]
    exact ⟨rfl, rfl, rfl⟩

/-! ### The whole log -/

section Whole

variable {setting : Option String} {source : String}

theorem exists_log_of_error {e : ParseError} (h : (parsed source).result = .error e)
    (file : Option String) : ∃ l : Log, l.IsOf setting source ∧
      (runSource setting file source).records.map Record.line = l.lines := by
  have hno : ∀ A, (parsed source).result ≠ .ok A := by
    intro A hA
    rw [h] at hA
    cases hA
  refine ⟨⟨(lexRecords source).map Record.line, (parsed source).records.map Record.line, [], []⟩,
    ?_, ?_⟩
  · exact
      { lexer_eq := map_line_lexRecords source
        parser_eq := map_line_records _
        spelled := fun A hA => absurd hA (hno A)
        of_error := fun _ _ => ⟨rfl, rfl⟩
        listing_of_silent := fun _ => rfl
        listing_of_verbose := fun A hA => absurd hA (hno A)
        machine_of_not_failsAt := fun A hA => absurd hA (hno A)
        machine_of_failsAt := fun A hA => absurd hA (hno A) }
  · unfold runSource
    rw [Machine.run_of_error h, List.map_append]
    simp [Log.lines]

theorem exists_log_of_ok {A : List Stmt} (h : (parsed source).result = .ok A)
    (file : Option String) : ∃ l : Log, l.IsOf setting source ∧
      (runSource setting file source).records.map Record.line = l.lines := by
  have hA : ∀ {B}, (parsed source).result = .ok B → B = A := by
    intro B hB
    rw [h] at hB
    cases hB
    rfl
  have hlen : ((parsed source).records.map Record.line).length = (parsed source).missing := by
    simp [Outcome.records]
  refine ⟨⟨(lexRecords source).map Record.line, (parsed source).records.map Record.line,
    (Machine.listing (isVerbose setting) (Token.lex source) A).map Record.line,
    ((execute ∅ (A.map Stmt.toNode)).started.map Record.executing).map Record.line⟩, ?_, ?_⟩
  · refine
      { lexer_eq := map_line_lexRecords source
        parser_eq := map_line_records _
        spelled := fun B hB => ?_
        of_error := fun e he => ?_
        listing_of_silent := fun hs => map_line_listing_of_silent hs _ A
        listing_of_verbose := fun B hB hnone hempty => ?_
        machine_of_not_failsAt := fun B hB hk => ?_
        machine_of_failsAt := fun B hB k hk => ?_ }
    · rw [hlen]
      exact Parser.spelled_of_result_eq_ok hB
    · rw [h] at he
      cases he
    · rw [hA hB]
      exact map_line_listing_of_verbose hnone hempty _ A
    · rw [hA hB] at hk ⊢
      exact map_line_started_of_not_failsAt hk
    · rw [hA hB] at hk ⊢
      exact map_line_started_of_failsAt hk
  · unfold runSource
    rw [Machine.run_of_ok h]
    simp [Log.lines, Machine.exec, Machine.fresh]

end Whole

/-- **The log**: the log of a run consists of the lines of its stages in their order, each as the
source and the setting tell; and for any two settings, the result, the machine and the output are
the same. -/
theorem log_goes_stage_by_stage (setting file : Option String) (source : String) :
    (∃ l : Log, l.IsOf setting source ∧
      (runSource setting file source).records.map Record.line = l.lines) ∧
    ∀ setting', (runSource setting file source).result = (runSource setting' file source).result ∧
      (runSource setting file source).machine = (runSource setting' file source).machine ∧
        (runSource setting file source).output = (runSource setting' file source).output := by
  refine ⟨?_, fun setting' => Machine.run_eq_of_verbose _ _ _ _⟩
  rcases h : (parsed source).result with e | A
  · exact exists_log_of_error h file
  · exact exists_log_of_ok h file

/-- Three statements: one without a semicolon, one with an unbound name, and one whose string
literal is not closed. -/
def threeWarnings : String := "ipakita \"a\" ipakita y; ipakita \"b"

/-- The statements of `threeWarnings`. -/
def threeWarningsStmts : List Stmt := [.print (.text "a"), .print (.name "y"), .print (.text "b")]

theorem log_of_threeWarnings :
    FailsAt ∅ (threeWarningsStmts.map Stmt.toNode) 1 ∧
    (runSource (some "0") none threeWarnings).records.map Record.line =
      [(.lexer, .warning, "Unterminated string literal absorbed to end of input"),
        (.parser, .warning, "Semicolon not found at the end of the statement."),
        (.parser, .warning, "Semicolon not found at the end of the statement."),
        (.run, .info, "Tokens: [Token(KEYWORD, 'ipakita'), Token(STRING, 'a'), " ++
          "Token(KEYWORD, 'ipakita'), Token(IDENTIFIER, 'y'), Token(OPERATOR, ';'), " ++
          "Token(KEYWORD, 'ipakita'), Token(STRING, 'b')]"),
        (.run, .info, "AST: [PrintStatement(value=StringLiteral(value='a')), " ++
          "PrintStatement(value=Identifier(name='y')), " ++
          "PrintStatement(value=StringLiteral(value='b'))]"),
        (.machine, .debug, "Executing PrintStatement(value=StringLiteral(value='a'))"),
        (.machine, .debug, "Executing PrintStatement(value=Identifier(name='y'))")] := by
  have hfails : FailsAt ∅ (threeWarningsStmts.map Stmt.toNode) 1 :=
    ⟨rfl, .print (.name "y"), .undefined "y", rfl, rfl⟩
  have hparsed : (parsed threeWarnings).result = .ok threeWarningsStmts := by decide +kernel
  have hmissing : (parsed threeWarnings).missing = 2 := by decide +kernel
  have hodd : Odd (quotes threeWarnings) := by decide
  obtain ⟨⟨l, hl, hlines⟩, -⟩ := log_goes_stage_by_stage (some "0") none threeWarnings
  refine ⟨hfails, ?_⟩
  rw [hlines, Log.lines, hl.lexer_eq, hl.parser_eq, hl.listing_of_verbose _ hparsed (by decide)
    (by decide), hl.machine_of_failsAt _ hparsed 1 hfails, if_pos hodd, hmissing]
  decide +kernel

end Bagay
