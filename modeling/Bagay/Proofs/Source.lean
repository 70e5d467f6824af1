import Bagay.Decimal.Numeral
import Bagay.Node
import Bagay.Proofs.Parser.Acceptance
import Bagay.Proofs.Token.Layout
import Mathlib.Data.List.Forall2

/-!
# Source texts of programs

Which nodes are the statements of some source, and which sources have given statements. A node does
not say how its numbers were written, so the texts of a node are a relation: a number is written
with any digits that read as it, a string between quotes, and the parts of a node in order, with
single spaces between them. A statement ends with a semicolon, and each stands on a line of its own.

* `Node.IsSourceExpr`, `Node.IsSourceStmt`: what a source can say.
* `Node.SourceText`, `IsSource`: the texts of a node and of a list of statements.
* `Node.IsSourceExpr.spells`, `Node.IsSourceStmt.spells`: a text of such a node is read as tokens
  that spell the node.
* `Program.Spelled.isSourceStmt`: conversely, well-formed tokens spell such nodes only.
* `source_round_trip`: the statements of the sources are exactly these nodes, and each of their
  texts is parsed back without a warning.
-/

namespace Bagay

/-! ### What a source can say -/

namespace Node

/-- The expressions of the sources. A right operand is never composed. -/
def IsSourceExpr (read : String → Option Float) : Node → Prop
  | number x => ∃ d : String, IsNumeral d.toList ∧ read d = some x
  | text s => '"' ∉ s.toList
  | name n => IsName n
  | binary symbol left right =>
    (symbol = "+" ∨ symbol = "-") ∧ left.IsSourceExpr read ∧ right.IsSourceExpr read ∧
      right.isBinary = false
  | _ => False

/-- The statements of the sources. -/
def IsSourceStmt (read : String → Option Float) : Node → Prop
  | declare n type e => IsName n ∧ (type = "teksto" ∨ type = "bilang") ∧ e.IsSourceExpr read
  | print e => e.IsSourceExpr read
  | _ => False

/-- The texts of a node, a statement without its semicolon. -/
inductive SourceText (read : String → Option Float) : Node → String → Prop
  | number {x : Float} {d : String} (hd : IsNumeral d.toList) (hx : read d = some x) :
      SourceText read (number x) d
  | text (s : String) : SourceText read (text s) ("\"" ++ s ++ "\"")
  | name (n : String) : SourceText read (name n) n
  | binary {left right : Node} {u v : String} (symbol : String) (hl : SourceText read left u)
      (hr : SourceText read right v) :
      SourceText read (binary symbol left right) (" ".intercalate [u, symbol, v])
  | declare {value : Node} {u : String} (n type : String) (hv : SourceText read value u) :
      SourceText read (declare n type value) (" ".intercalate ["bagay", n, "->", type, "=", u])
  | print {value : Node} {u : String} (hv : SourceText read value u) :
      SourceText read (print value) (" ".intercalate ["ipakita", u])

/-- The lines of a statement; its semicolon may stand apart. -/
def Line (read : String → Option Float) (n : Node) (line : String) : Prop :=
  ∃ u, n.SourceText read u ∧ (line = u ++ ";" ∨ line = u ++ " ;")

end Node

/-- The sources of a list of statements, one to a line. -/
def IsSource (read : String → Option Float) (ns : List Node) (source : String) : Prop :=
  ∃ lines, List.Forall₂ (Node.Line read) ns lines ∧ source = "\n".intercalate lines

variable {read : String → Option Float} {n : Node} {u : String}

/-! ### Every such node has a text -/

theorem Node.IsSourceExpr.exists_text (h : n.IsSourceExpr read) : ∃ u, n.SourceText read u := by
  induction n with
  | number x =>
    obtain ⟨d, hd, hx⟩ := h
    exact ⟨d, .number hd hx⟩
  | text s => exact ⟨_, .text s⟩
  | name n => exact ⟨_, .name n⟩
  | binary symbol left right ihl ihr =>
    obtain ⟨-, hl, hr, -⟩ := h
    obtain ⟨u, hu⟩ := ihl hl
    obtain ⟨v, hv⟩ := ihr hr
    exact ⟨_, .binary symbol hu hv⟩
  | _ => exact h.elim

theorem Node.IsSourceStmt.exists_line (h : n.IsSourceStmt read) : ∃ line, n.Line read line := by
  cases n with
  | declare n type value =>
    obtain ⟨u, hu⟩ := h.2.2.exists_text
    exact ⟨_, _, .declare n type hu, .inl rfl⟩
  | print value =>
    obtain ⟨u, hu⟩ := Node.IsSourceExpr.exists_text h
    exact ⟨_, _, .print hu, .inl rfl⟩
  | _ => exact h.elim

theorem exists_isSource {ns : List Node} (h : ∀ n ∈ ns, n.IsSourceStmt read) :
    ∃ source, IsSource read ns source := by
  suffices hlines : ∃ lines, List.Forall₂ (Node.Line read) ns lines by
    obtain ⟨lines, hl⟩ := hlines
    exact ⟨_, lines, hl, rfl⟩
  induction ns with
  | nil => exact ⟨[], .nil⟩
  | cons n ns ih =>
    obtain ⟨line, hline⟩ := (h n List.mem_cons_self).exists_line
    obtain ⟨lines, hlines⟩ := ih fun m hm => h m (List.mem_cons_of_mem n hm)
    exact ⟨line :: lines, .cons hline hlines⟩

/-! ### A text is read as a spelling -/

theorem Spells.verbatim {k : Token.Kind} {s : String} (hk : k ≠ .string)
    (h : Token.WellFormed ⟨k, s⟩) : Spells s.toList [⟨k, s⟩] := by
  have hs := Spells.token h
  rwa [Token.spelling, if_neg hk] at hs

theorem Spells.keyword {s : String} (h : s ∈ Token.keywords) : Spells s.toList [⟨.keyword, s⟩] :=
  .verbatim (by decide) h

theorem Spells.operator {s : String} (h : s ∈ ["=", "->", "+", "-", ";"]) :
    Spells s.toList [⟨.operator, s⟩] :=
  .verbatim (by decide) h

theorem Node.IsSourceExpr.spells_operand (h : n.IsSourceExpr read) (hn : n.isBinary = false)
    (hu : n.SourceText read u) :
    ∃ (e : Expr) (t : Token), e.toNode = n ∧ t.IsOperand read e ∧ Spells u.toList [t] := by
  cases hu with
  | number hd hx => exact ⟨_, ⟨.number, u⟩, rfl, .number hx, .verbatim (by decide) hd⟩
  | text s =>
    refine ⟨_, ⟨.string, s⟩, rfl, .text s, ?_⟩
    have hs : Spells (Token.spelling ⟨.string, s⟩) [⟨.string, s⟩] := .token h
    simpa [Token.spelling] using hs
  | name n => exact ⟨_, ⟨.identifier, u⟩, rfl, .name u, .verbatim (by decide) h⟩
  | binary symbol hl hr => cases hn
  | declare n type hv => exact h.elim
  | print hv => exact h.elim

theorem Node.IsSourceExpr.spells (h : n.IsSourceExpr read) (hu : n.SourceText read u) :
    ∃ (e : Expr) (ts : List Token), e.toNode = n ∧ e.Spelled read ts ∧ Spells u.toList ts := by
  induction hu with
  | @binary left right u v symbol hl hr ihl _ =>
    obtain ⟨hsym, hleft, hright, hn⟩ := h
    obtain ⟨e, ts, rfl, hts, hu⟩ := ihl hleft
    obtain ⟨e', t, rfl, ht, hv⟩ := hright.spells_operand hn hr
    obtain ⟨op, rfl⟩ : ∃ op : Op, op.symbol = symbol := by
      rcases hsym with rfl | rfl
      · exact ⟨.add, rfl⟩
      · exact ⟨.sub, rfl⟩
    refine ⟨.binary op e e', ts ++ [op.token, t], rfl, .binary op hts ht, ?_⟩
    have hop : Spells op.symbol.toList [op.token] := .operator (by cases op <;> decide)
    have h := hu.gap_append (.inl rfl) (hop.gap_append (.inl rfl) hv)
    simpa using h
  | _ =>
    obtain ⟨e, t, he, ht, hs⟩ := h.spells_operand rfl (by constructor <;> assumption)
    exact ⟨e, [t], he, .operand ht, hs⟩

theorem Node.IsSourceStmt.spells (h : n.IsSourceStmt read) (hu : n.SourceText read u) :
    ∃ (s : Stmt) (ts : List Token), s.toNode = n ∧ s.Spelled read ts ∧ Spells u.toList ts := by
  cases hu with
  | @declare value v name type hv =>
    obtain ⟨hname, htype, hvalue⟩ := h
    obtain ⟨e, ts, rfl, hts, hv⟩ := hvalue.spells hv
    refine ⟨.declare name type e, _, rfl, .declare name htype hts, ?_⟩
    have hb : Spells "bagay".toList [⟨.keyword, "bagay"⟩] := .keyword (by decide)
    have hn : Spells name.toList [⟨.identifier, name⟩] := .verbatim (by decide) hname
    have ha : Spells "->".toList [⟨.operator, "->"⟩] := .operator (by decide)
    have ht : Spells type.toList [⟨.keyword, type⟩] := by
      rcases htype with rfl | rfl <;> exact .keyword (by decide)
    have he : Spells "=".toList [⟨.operator, "="⟩] := .operator (by decide)
    have h := hb.gap_append (.inl rfl) (hn.gap_append (.inl rfl) (ha.gap_append (.inl rfl)
      (ht.gap_append (.inl rfl) (he.gap_append (.inl rfl) hv))))
    simpa using h
  | @print value v hv =>
    obtain ⟨e, ts, rfl, hts, hv⟩ := Node.IsSourceExpr.spells h hv
    refine ⟨.print e, _, rfl, .print hts, ?_⟩
    have hp : Spells "ipakita".toList [⟨.keyword, "ipakita"⟩] := .keyword (by decide)
    have h := hp.gap_append (.inl rfl) hv
    simpa using h
  | _ => exact h.elim

theorem Node.Line.spells {line : String} (h : n.IsSourceStmt read) (hl : n.Line read line) :
    ∃ (s : Stmt) (ts : List Token), s.toNode = n ∧ s.Spelled read ts ∧
      Spells line.toList (ts ++ [Token.semicolon]) := by
  obtain ⟨u, hu, hline⟩ := hl
  obtain ⟨s, ts, hs, hts, hsp⟩ := h.spells hu
  refine ⟨s, ts, hs, hts, ?_⟩
  have hsemi : Spells [';'] [Token.semicolon] := Spells.operator (s := ";") (by decide)
  rcases hline with rfl | rfl
  · have h := hsp.append hsemi (separates_cons (.inr rfl))
    simpa using h
  · have h := hsp.gap_append (.inl rfl) hsemi
    simpa using h

theorem spells_lines {ns : List Node} {lines : List String}
    (hl : List.Forall₂ (Node.Line read) ns lines) (h : ∀ n ∈ ns, n.IsSourceStmt read) :
    ∃ A ts, A.map Stmt.toNode = ns ∧ Program.Spelled read A 0 ts ∧
      Spells ("\n".intercalate lines).toList ts := by
  induction hl with
  | nil => exact ⟨[], [], rfl, .nil, fun _ _ _ hr => by simpa using hr⟩
  | @cons n line ns lines hline hlines ih =>
    obtain ⟨s, ts, rfl, hts, hsp⟩ := hline.spells (h n List.mem_cons_self)
    obtain ⟨A, us, rfl, hus, hsps⟩ := ih fun m hm => h m (List.mem_cons_of_mem _ hm)
    refine ⟨s :: A, ts ++ Token.semicolon :: us, rfl, .closed hts hus, ?_⟩
    -- no line break follows the last line
    rcases lines with _ | ⟨line', lines⟩
    · obtain rfl : A = [] := by simpa using hlines
      cases hus
      simpa using hsp
    · have h := hsp.gap_append (.inr rfl) hsps
      simpa [String.intercalate_cons_cons] using h

/-! ### Well-formed tokens spell nothing else -/

theorem Token.IsOperand.isSourceExpr {t : Token} {e : Expr} (h : t.IsOperand read e)
    (ht : t.WellFormed) : e.toNode.IsSourceExpr read ∧ e.toNode.isBinary = false := by
  cases h with
  | @number text x hx => exact ⟨⟨text, ht, hx⟩, rfl⟩
  | text s => exact ⟨ht, rfl⟩
  | name n => exact ⟨ht, rfl⟩

theorem Expr.Spelled.isSourceExpr {e : Expr} {ts : List Token} (h : e.Spelled read ts)
    (hts : ∀ t ∈ ts, t.WellFormed) : e.toNode.IsSourceExpr read := by
  induction h with
  | operand h => exact (h.isSourceExpr (hts _ List.mem_cons_self)).1
  | @binary left right ts t op hl hr ih =>
    have hleft := ih fun u hu => hts u (List.mem_append_left _ hu)
    have hright := hr.isSourceExpr (hts t (by simp))
    refine ⟨?_, hleft, hright.1, hright.2⟩
    cases op
    · exact .inl rfl
    · exact .inr rfl

theorem Stmt.Spelled.isSourceStmt {s : Stmt} {ts : List Token} (h : s.Spelled read ts)
    (hts : ∀ t ∈ ts, t.WellFormed) : s.toNode.IsSourceStmt read := by
  cases h with
  | declare name htype hv =>
    have hname : Token.WellFormed ⟨.identifier, name⟩ := hts _ (by simp)
    exact ⟨hname, htype, hv.isSourceExpr fun t ht => hts t (by simp [ht])⟩
  | print hv => exact hv.isSourceExpr fun t ht => hts t (by simp [ht])

theorem Program.Spelled.isSourceStmt {A : List Stmt} {w : Nat} {ts : List Token}
    (h : Program.Spelled read A w ts) (hts : ∀ t ∈ ts, t.WellFormed) :
    ∀ n ∈ A.map Stmt.toNode, n.IsSourceStmt read := by
  induction h with
  | nil => simp
  | closed hs hss ih =>
    rw [List.map_cons, List.forall_mem_cons]
    exact ⟨hs.isSourceStmt fun t ht => hts t (by simp [ht]), ih fun t ht => hts t (by simp [ht])⟩
  | bare hs hss ih =>
    rw [List.map_cons, List.forall_mem_cons]
    exact ⟨hs.isSourceStmt fun t ht => hts t (by simp [ht]), ih fun t ht => hts t (by simp [ht])⟩

/-! ### The round trip -/

theorem isSourceStmt_of_program {s : String} {A : List Stmt}
    (h : (Parser.program read (Token.lex s)).result = .ok A) :
    ∀ n ∈ A.map Stmt.toNode, n.IsSourceStmt read := by
  have hA := Parser.spelled_of_result_eq_ok h
  exact hA.isSourceStmt fun _ ht => wellFormed_of_mem_lex ht

/-- A source of a list of statements is parsed back, without a warning. -/
theorem IsSource.program_eq {ns : List Node} {source : String} (h : IsSource read ns source)
    (hns : ∀ n ∈ ns, n.IsSourceStmt read) :
    ∃ A, A.map Stmt.toNode = ns ∧ Parser.program read (Token.lex source) = ⟨.ok A, [], 0⟩ ∧
      isUnterminated source = false := by
  obtain ⟨lines, hlines, rfl⟩ := h
  obtain ⟨A, ts, hA, hts, hsp⟩ := spells_lines hlines hns
  obtain ⟨hlex, hterm⟩ := hsp.lex_eq
  refine ⟨A, hA, ?_, hterm⟩
  rw [hlex]
  exact Parser.program_complete hts

/-- **Round trip**: a list of nodes is the program of some source exactly if each node is a
statement that a source can have; then it has a source, and each of its sources is parsed back to
it, with all semicolons and closing quotes in place. -/
theorem source_round_trip (read : String → Option Float) (ns : List Node) :
    ((∃ s A, (Parser.program read (Token.lex s)).result = .ok A ∧ A.map Stmt.toNode = ns) ↔
        ∀ n ∈ ns, n.IsSourceStmt read) ∧
      ((∀ n ∈ ns, n.IsSourceStmt read) →
        (∃ source, IsSource read ns source) ∧
          ∀ source, IsSource read ns source →
            ∃ A, A.map Stmt.toNode = ns ∧
              Parser.program read (Token.lex source) = ⟨.ok A, [], 0⟩ ∧
                isUnterminated source = false) := by
  have hback : (∀ n ∈ ns, n.IsSourceStmt read) → _ := fun hns =>
    And.intro (exists_isSource hns) fun source (h : IsSource read ns source) => h.program_eq hns
  refine ⟨⟨?_, fun hns => ?_⟩, hback⟩
  · rintro ⟨s, A, hA, rfl⟩
    exact isSourceStmt_of_program hA
  · obtain ⟨⟨source, h⟩, hparse⟩ := hback hns
    obtain ⟨A, hA, hp, -⟩ := hparse source h
    exact ⟨source, A, by rw [hp], hA⟩

/-- A name that starts with a reserved word, and a string with a line break that looks like code. -/
def trickyProgram : List Node :=
  [.declare "bagay1" "teksto"
      (.binary "-" (.binary "+" (.text "; ->\nipakita") (.name "_x")) (.text "")),
    .print (.name "bagay1")]

/-- Its text, with a line break between the statements. -/
def trickySource : String :=
  "bagay bagay1 -> teksto = \"; ->\nipakita\" + _x - \"\";\nipakita bagay1 ;"

theorem trickySource_parses_back : IsSource Numeral.read? trickyProgram trickySource ∧
    ∃ A, A.map Stmt.toNode = trickyProgram ∧
      Parser.program Numeral.read? (Token.lex trickySource) = ⟨.ok A, [], 0⟩ ∧
        isUnterminated trickySource = false := by
  have hx : IsName "_x" := by decide
  have hb : IsName "bagay1" := by decide
  have hns : ∀ n ∈ trickyProgram, n.IsSourceStmt Numeral.read? := by
    simp [trickyProgram, Node.IsSourceStmt, Node.IsSourceExpr, Node.isBinary, hx, hb]
  have hs : IsSource Numeral.read? trickyProgram trickySource := by
    have hvalue := @Node.SourceText.binary Numeral.read? _ _ _ _ "-"
      (.binary "+" (.text "; ->\nipakita") (.name "_x")) (.text "")
    exact ⟨_, .cons ⟨_, .declare _ _ hvalue, .inl rfl⟩
      (.cons ⟨_, .print (.name _), .inr rfl⟩ .nil), by decide⟩
  exact ⟨hs, ((source_round_trip Numeral.read? trickyProgram).2 hns).2 trickySource hs⟩

end Bagay
