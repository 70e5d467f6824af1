import Bagay.Proofs.Chain
import Bagay.Proofs.Decimal.Integers
import Bagay.Proofs.Machine.Batch
import Mathlib.Data.List.Basic

/-!
# Calculations with integers

A calculation is a number in digits, then operators with a number each. Its result is computed from
left to right in the integers. A machine computes it with floats, and these are exact as long as no
number and no partial result is larger than `2 ^ 53`: each turn of the loop along the chain keeps a
float that is equal to the partial result.

* `Calculation.result`, `Calculation.Fits`: the result, and the bound on all that leads to it.
* `exists_linkValue`, `exists_foldlM`: one turn of the loop, and all of them.
* `IsDecimalOf`: the decimal digits of an integer; `isDecimalOf_repr`: how it is printed.
* `integer_calculations_are_exact`: the result for sources, in one statement or in two.
-/

namespace Bagay

open Exact (IsInteger)

/-- Digits, at least one. -/
structure Digits where
  text : String
  isNumeral : IsNumeral text.toList

namespace Digits

/-- The number with these digits. -/
def value (d : Digits) : Nat := Nat.ofDigitChars 10 d.text.toList 0

/-- The token of the digits. -/
def token (d : Digits) : Token := ⟨.number, d.text⟩

theorem isSome_read? (d : Digits) : (Numeral.read? d.text).isSome :=
  Numeral.isSome_read?_of_isDigit d.isNumeral.1 d.isNumeral.2

/-- The operand that the digits are. -/
def operand (d : Digits) : Operand Numeral.read? :=
  .number d.text ((Numeral.read? d.text).get d.isSome_read?) (Option.some_get _).symm

theorem exists_value (d : Digits) (hle : d.value ≤ 2 ^ 53) (b : Bindings) :
    ∃ x, d.operand.value b = .ok (.number x) ∧ IsInteger x d.value := by
  obtain ⟨x, hx, hint⟩ := Exact.exists_read? d.isNumeral.1 d.isNumeral.2 hle
  have hget : (Numeral.read? d.text).get d.isSome_read? = x := by simp only [hx, Option.get_some]
  refine ⟨_, rfl, ?_⟩
  rw [hget]
  exact hint

end Digits

/-- A number, and operators with a number each. -/
structure Calculation where
  first : Digits
  links : List (Op × Digits)

namespace Calculation

/-- A partial result after one more link. -/
def turn (n : Int) : Op × Digits → Int
  | (.add, d) => n + d.value
  | (.sub, d) => n - d.value

/-- The result, from left to right. -/
def result (c : Calculation) : Int := c.links.foldl turn c.first.value

/-- From the partial result `n` on, no number and no partial result is larger than `2 ^ 53`, on
either side of zero. -/
structure FitsFrom (n : Int) (links : List (Op × Digits)) : Prop where
  number : ∀ p ∈ links, p.2.value ≤ 2 ^ 53
  part : ∀ k, ((links.take k).foldl turn n).natAbs ≤ 2 ^ 53

/-- No number and no partial result is larger than `2 ^ 53`; the first number is also the first
partial result. -/
def Fits (c : Calculation) : Prop := FitsFrom c.first.value c.links

/-- A link as text. -/
def linkText (p : Op × Digits) : List Char := p.1.symbol.toList ++ p.2.text.toList

/-- The calculation as text, without white space. -/
def text (c : Calculation) : String :=
  String.ofList (c.first.text.toList ++ c.links.flatMap linkText)

/-- A link with the operand of its digits. -/
def linkOperand (p : Op × Digits) : Op × Operand Numeral.read? := (p.1, p.2.operand)

/-- The tokens of a link. -/
def linkTokens (p : Op × Digits) : List Token := Chain.linkTokens (linkOperand p)

/-- The tokens of a statement that prints an operand and then links. -/
def printTokens (first : Token) (links : List (Op × Digits)) : List Token :=
  ⟨.keyword, "ipakita"⟩ :: first :: links.flatMap linkTokens

/-- The tokens of a statement that declares a name, with the value of an operand and then links. -/
def declareTokens (name type : String) (first : Token) (links : List (Op × Digits)) : List Token :=
  ⟨.keyword, "bagay"⟩ :: ⟨.identifier, name⟩ :: ⟨.operator, "->"⟩ :: ⟨.keyword, type⟩ ::
    ⟨.operator, "="⟩ :: first :: links.flatMap linkTokens

/-! ### The loop is exact -/

variable {b : Bindings} {x : Float} {n : Int} {links : List (Op × Digits)}

/-- One turn of the loop. -/
theorem exists_linkValue (hx : IsInteger x n) {p : Op × Digits} (hp : p.2.value ≤ 2 ^ 53)
    (hle : (turn n p).natAbs ≤ 2 ^ 53) :
    ∃ y, Chain.linkValue b (.number x) (linkOperand p) = .ok (.number y) ∧
      IsInteger y (turn n p) := by
  obtain ⟨op, d⟩ := p
  obtain ⟨y, hy, hint⟩ := d.exists_value hp b
  have hvalue : Chain.linkValue b (.number x) (linkOperand (op, d)) =
      Node.apply op (.value (.number x)) (.value (.number y)) := by
    unfold Chain.linkValue linkOperand
    rw [hy]
    rfl
  rw [hvalue]
  cases op with
  | add => exact ⟨x + y, rfl, hx.add hint hle⟩
  | sub => exact ⟨x - y, rfl, hx.sub hint hle⟩

theorem FitsFrom.take (h : FitsFrom n links) (k : Nat) : FitsFrom n (links.take k) := by
  refine ⟨fun p hp => h.number p (List.mem_of_mem_take hp), fun j => ?_⟩
  rw [List.take_take]
  exact h.part _

theorem FitsFrom.drop (h : FitsFrom n links) (k : Nat) :
    FitsFrom ((links.take k).foldl turn n) (links.drop k) := by
  refine ⟨fun p hp => h.number p (List.mem_of_mem_drop hp), fun j => ?_⟩
  rw [← List.foldl_append, ← List.take_add]
  exact h.part _

/-- All turns of the loop. -/
theorem exists_foldlM (hx : IsInteger x n) (h : FitsFrom n links) :
    ∃ y, (links.map linkOperand).foldlM (Chain.linkValue b) (.number x) = .ok (.number y) ∧
      IsInteger y (links.foldl turn n) := by
  induction links generalizing x n with
  | nil => exact ⟨x, rfl, hx⟩
  | cons p links ih =>
    obtain ⟨y, hy, hint⟩ :=
      exists_linkValue (b := b) hx (h.number p List.mem_cons_self) (h.part 1)
    obtain ⟨z, hz, hresult⟩ := ih hint (h.drop 1)
    refine ⟨z, ?_, hresult⟩
    rw [List.map_cons, List.foldlM_cons, hy]
    exact hz

/-- The chain of an operand and links. -/
def chain (t : Operand Numeral.read?) (links : List (Op × Digits)) : Chain Numeral.read? :=
  ⟨t, links.map linkOperand⟩

theorem exists_eval_chain {t : Operand Numeral.read?} (ht : t.value b = .ok (.number x))
    (hx : IsInteger x n) (h : FitsFrom n links) :
    ∃ y, (chain t links).expr.toNode.eval b = .ok (.number y) ∧
      IsInteger y (links.foldl turn n) := by
  obtain ⟨y, hy, hint⟩ := exists_foldlM (b := b) hx h
  refine ⟨y, ?_, hint⟩
  rw [Chain.eval_expr, Chain.value, chain, ht]
  exact hy

theorem tokens_chain (t : Operand Numeral.read?) (links : List (Op × Digits)) :
    (chain t links).tokens = t.token :: links.flatMap linkTokens := by
  rw [chain, Chain.tokens, List.flatMap_map]
  rfl

/-! ### Statements -/

theorem spelled_print (t : Operand Numeral.read?) (links : List (Op × Digits)) :
    (Stmt.print (chain t links).expr).Spelled Numeral.read? (printTokens t.token links) := by
  rw [printTokens, ← tokens_chain]
  exact .print (chain t links).spelled_expr

theorem spelled_declare {type : String} (htype : type = "teksto" ∨ type = "bilang") (name : String)
    (t : Operand Numeral.read?) (links : List (Op × Digits)) :
    (Stmt.declare name type (chain t links).expr).Spelled Numeral.read?
      (declareTokens name type t.token links) := by
  rw [declareTokens, ← tokens_chain]
  exact .declare name htype (chain t links).spelled_expr

end Calculation

/-- The end of a statement: a semicolon, which may be left out. -/
def IsStop (ts : List Token) : Prop := ts = [] ∨ ts = [Token.semicolon]

theorem Stmt.Spelled.exists_program {read : String → Option Float} {s : Stmt}
    {ts stop : List Token} (hs : s.Spelled read ts) (hstop : IsStop stop) :
    ∃ w, Program.Spelled read [s] w (ts ++ stop) := by
  rcases hstop with rfl | rfl
  · exact ⟨1, .bare hs .nil⟩
  · exact ⟨0, .closed hs .nil⟩

/-- The source can be written as these tokens, with white space between them. -/
def HasTokens (source : String) (ts : List Token) : Prop :=
  ∃ chunks, Lexing source.toList chunks ts

theorem hasTokens_iff {source : String} {ts : List Token} :
    HasTokens source ts ↔ Token.lex source = ts := by
  rw [Lexeme.lex_eq_filterMap_solids]
  constructor
  · rintro ⟨chunks, h⟩
    exact h.eq_filterMap_solids.symm
  · rintro rfl
    obtain ⟨chunks, ts, h⟩ := exists_lexing source.toList
    exact ⟨chunks, h.eq_filterMap_solids ▸ h⟩

theorem HasTokens.run_eq {source : String} {ts : List Token} {A : List Stmt} {w : Nat}
    (h : HasTokens source ts) (hA : Program.Spelled Numeral.read? A w ts) (m : Machine)
    (verbose : Bool) :
    ∃ records, m.run verbose source = { m.exec (A.map Stmt.toNode) with records := records } := by
  have hparsed : (parsed source).result = .ok A := by
    rw [parsed, hasTokens_iff.mp h, Parser.program_complete hA]
  exact ⟨_, Machine.run_of_ok hparsed verbose m⟩

/-! ### Printing -/

/-- The decimal digits of an integer: a minus sign exactly if it is negative, no zero in front of
other digits, and nothing else. -/
def IsDecimalOf (n : Int) (t : String) : Prop :=
  ∃ ds, t.toList = (if n < 0 then ['-'] else []) ++ ds ∧ IsNumeral ds ∧
    Nat.ofDigitChars 10 ds 0 = n.natAbs ∧ (ds.head? = some '0' → ds = ['0'])

theorem head?_toDigits {n : Nat} (h : (Nat.toDigits 10 n).head? = some '0') : n = 0 := by
  induction n using Nat.strongRecOn with
  | ind n ih =>
    rw [Nat.toDigits_eq_if (by decide)] at h
    split at h
    · next hlt =>
      rw [List.head?_singleton, Option.some_inj] at h
      have hdigit := Nat.toNat_digitChar_sub_48_of_lt_ten hlt
      rw [h] at hdigit
      exact hdigit.symm
    · next hle =>
      rw [List.head?_append_of_ne_nil _ Nat.toDigits_ne_nil] at h
      have := ih (n / 10) (by omega) h
      omega

theorem isDecimalOf_repr (n : Int) : IsDecimalOf n n.repr := by
  refine ⟨Nat.toDigits 10 n.natAbs, ?_, ⟨Nat.toDigits_ne_nil, fun c hc => ?_⟩,
    Nat.ofDigitChars_ten_toDigits, fun h => ?_⟩
  · rcases n with k | k
    · have hk : ¬ Int.ofNat k < 0 := Int.not_lt.mpr (Int.natCast_nonneg k)
      rw [if_neg hk]
      exact Nat.toList_repr
    · rw [if_pos (Int.negSucc_lt_zero k)]
      show ("-" ++ (k + 1).repr).toList = _
      rw [String.toList_append, Nat.toList_repr]
      rfl
  · exact Nat.isDigit_of_mem_toDigits (by decide) (by decide) hc
  · rw [head?_toDigits h]
    rfl

/-- The run ended without a failure, and printed the integer on a line of its own. -/
structure Report.Prints (r : Report) (n : Int) : Prop where
  result : r.result = .ok none
  output : ∃ t, IsDecimalOf n t ∧ r.output = t ++ "\n"

theorem Machine.exec_print {m : Machine} {e : Expr} {y : Float} {n : Int}
    (h : e.toNode.eval m.bindings = .ok (.number y)) (hy : IsInteger y n) :
    (m.exec [(Stmt.print e).toNode]).Prints n := by
  have hdisplay : (Value.number y).display = n.repr := by
    have hint : (Exact.ofFloat y).integer? = some n := hy
    simp only [Value.display, hint]
  have hrun := execute_of_ok (step_print_of_ok h) []
  refine ⟨Machine.result_exec_of_none ?_, n.repr, isDecimalOf_repr n, ?_⟩
  · exact congrArg Execution.fault hrun
  · refine (congrArg Execution.output hrun).trans ?_
    rw [hdisplay]
    exact String.append_empty

theorem Machine.exec_declare {m : Machine} {e : Expr} {v : Value}
    (h : e.toNode.eval m.bindings = .ok v) (name type : String) :
    (execute m.bindings [(Stmt.declare name type e).toNode]).fault = none ∧
      (m.exec [(Stmt.declare name type e).toNode]).machine =
        { m with bindings := m.bindings.insert name v } ∧
      (m.exec [(Stmt.declare name type e).toNode]).output = "" := by
  have hrun := execute_of_ok (step_declare_of_ok h name type) []
  refine ⟨congrArg Execution.fault hrun, ?_, congrArg Execution.output hrun⟩
  exact congrArg (fun r : Execution => { m with bindings := r.bindings }) hrun

/-! ### The text of a calculation -/

namespace Calculation

/-- No link starts with a digit. -/
theorem chunk_digits (d : Digits) (links : List (Op × Digits)) :
    Chunk d.text.toList (links.flatMap linkText) (some d.token) := by
  have htoken : d.token = ⟨.number, String.ofList d.text.toList⟩ := by
    rw [String.ofList_toList, Digits.token]
  rw [htoken]
  refine .number d.isNumeral fun c hc => ?_
  rcases links with _ | ⟨⟨op, e⟩, links⟩
  · cases hc
  · have hhead : ((op, e) :: links).flatMap linkText = op.symbol.toList ++ (e.text.toList ++
        links.flatMap linkText) := by
      rw [List.flatMap_cons, linkText, List.append_assoc]
    rw [hhead] at hc
    cases op <;> simp [Op.symbol] at hc <;> subst hc <;> decide

theorem chunk_op (op : Op) (d : Digits) (rest : List Char) :
    Chunk op.symbol.toList (d.text.toList ++ rest) (some op.token) := by
  cases op with
  | add => exact .mark (c := '+') (.inr (.inl rfl))
  | sub =>
    refine .minus fun hhead => ?_
    obtain ⟨c, cs, hd⟩ := List.exists_cons_of_ne_nil d.isNumeral.1
    rw [hd] at hhead
    cases hhead
    have hgt := d.isNumeral.2 '>' (by simp [hd])
    revert hgt
    decide

theorem lexing_links (links : List (Op × Digits)) :
    ∃ chunks, Lexing (links.flatMap linkText) chunks (links.flatMap linkTokens) := by
  induction links with
  | nil => exact ⟨[], .nil⟩
  | cons p links ih =>
    obtain ⟨chunks, h⟩ := ih
    rw [List.flatMap_cons, linkText, List.append_assoc, List.flatMap_cons]
    exact ⟨_, .cons (chunk_op p.1 p.2 _) (.cons (chunk_digits p.2 links) h)⟩

/-- The plain text of a calculation behind the word that prints it. -/
theorem hasTokens_text (c : Calculation) :
    HasTokens ("ipakita " ++ c.text) (printTokens c.first.token c.links) := by
  obtain ⟨chunks, h⟩ := lexing_links c.links
  have hsource : ("ipakita " ++ c.text).toList =
      "ipakita".toList ++ ([' '] ++ (c.first.text.toList ++ c.links.flatMap linkText)) := by
    simp [text]
  have hword : ∀ rest : List Char, ∀ d ∈ ([' '] ++ rest).head?, ¬ IsWordChar d := by
    simp [IsWordChar]
  unfold HasTokens
  rw [hsource]
  exact ⟨_, .cons (.keyword (by decide) (hword _) (by decide)) (.cons (.space (by simp) (by simp))
    (.cons (chunk_digits c.first c.links) h))⟩

end Calculation

section Sources

open Calculation

variable {m : Machine} {t : Operand Numeral.read?} {x : Float} {n : Int}
  {links : List (Op × Digits)} {stop : List Token} {source : String}

theorem HasTokens.prints (h : HasTokens source (printTokens t.token links ++ stop))
    (hstop : IsStop stop) (ht : t.value m.bindings = .ok (.number x)) (hx : IsInteger x n)
    (hlinks : FitsFrom n links) (verbose : Bool) :
    (m.run verbose source).Prints (links.foldl turn n) := by
  obtain ⟨w, hspelled⟩ := (spelled_print t links).exists_program hstop
  obtain ⟨records, hrun⟩ := h.run_eq hspelled m verbose
  obtain ⟨y, hy, hint⟩ := exists_eval_chain ht hx hlinks
  have hprint := Machine.exec_print hy hint
  rw [hrun]
  exact ⟨hprint.result, hprint.output⟩

/-- **Calculations**: if no number and no partial result of a calculation is larger than `2 ^ 53`,
then printing it prints its result, in all its decimal digits. The first part holds of the plain
text of the calculation, the second one of every source with its tokens, whatever the white space
and with or without a semicolon. In the third part the first links are calculated in a declaration
and the others behind its name, in one source or in a second one. -/
theorem integer_calculations_are_exact (c : Calculation) (hc : c.Fits) (m : Machine)
    (verbose : Bool) :
    (m.run verbose ("ipakita " ++ c.text)).Prints c.result ∧
    ∀ stop stop' : List Token, IsStop stop → IsStop stop' →
      (∀ source, HasTokens source (printTokens c.first.token c.links ++ stop) →
        (m.run verbose source).Prints c.result) ∧
      ∀ (k : Nat) (name type : String), type = "teksto" ∨ type = "bilang" →
        let declaration := declareTokens name type c.first.token (c.links.take k) ++ stop
        let print := printTokens ⟨.identifier, name⟩ (c.links.drop k) ++ stop'
        (∀ source, HasTokens source (declaration ++ print) →
          (m.run verbose source).Prints c.result) ∧
        ∀ source source', HasTokens source declaration → HasTokens source' print →
          let r := m.run verbose source
          r.result = .ok none ∧ r.output = "" ∧
            (r.machine.run verbose source').Prints c.result := by
  have hfirst : c.first.value ≤ 2 ^ 53 := hc.part 0
  obtain ⟨x, hx, hint⟩ := c.first.exists_value hfirst m.bindings
  have hplain := c.hasTokens_text
  rw [← List.append_nil (printTokens _ _)] at hplain
  refine ⟨hplain.prints (.inl rfl) hx hint hc verbose, fun stop stop' hstop hstop' =>
    ⟨fun source h => h.prints hstop hx hint hc verbose, fun k name type htype => ?_⟩⟩
  intro declaration print
  -- the declaration binds the name to the partial result after the first links
  obtain ⟨y, hy, hpart⟩ := exists_eval_chain hx hint (hc.take k)
  obtain ⟨hfault, hmachine, houtput⟩ := Machine.exec_declare hy name type
  obtain ⟨w, hdeclare⟩ :=
    (spelled_declare htype name c.first.operand (c.links.take k)).exists_program hstop
  set bound : Machine := { m with bindings := m.bindings.insert name (.number y) }
  have hname : (Operand.name name : Operand Numeral.read?).value bound.bindings =
      .ok (.number y) := by
    simp [Operand.value, bound]
  have hresult : c.result =
      (c.links.drop k).foldl turn ((c.links.take k).foldl turn c.first.value) := by
    rw [← List.foldl_append, List.take_append_drop, result]
  rw [hresult]
  refine ⟨fun source h => ?_, fun source source' h h' => ?_⟩
  · obtain ⟨w', hprint⟩ := (spelled_print (.name name) (c.links.drop k)).exists_program hstop'
    obtain ⟨records, hrun⟩ := h.run_eq (hdeclare.append hprint) m verbose
    obtain ⟨z, hz, hint'⟩ := exists_eval_chain hname hpart (hc.drop k)
    have hprints := Machine.exec_print hz hint'
    rw [hrun, List.map_append, List.map_singleton, Machine.exec_append hfault, hmachine, houtput,
      String.empty_append]
    exact ⟨hprints.result, hprints.output⟩
  · obtain ⟨records, hrun⟩ := h.run_eq hdeclare m verbose
    intro r
    have hr : r.machine = bound := (congrArg Report.machine hrun).trans hmachine
    refine ⟨?_, (congrArg Report.output hrun).trans houtput, ?_⟩
    · exact (congrArg Report.result hrun).trans (Machine.result_exec_of_none hfault)
    · rw [hr]
      exact HasTokens.prints (t := .name name) h' hstop' hname hpart (hc.drop k) verbose

/-- Zeros in front, and a partial result below zero. -/
def sevenMinusBound : Calculation where
  first := ⟨"007", by simp [IsNumeral]⟩
  links := [(.sub, ⟨"9007199254740992", by simp [IsNumeral]⟩), (.add, ⟨"0", by simp [IsNumeral]⟩)]

theorem sevenMinusBound_is_exact : sevenMinusBound.Fits ∧
    ((Machine.fresh none).run false "ipakita 007-9007199254740992+0").Prints (-9007199254740985) ∧
    ((Machine.fresh none).run false
      "bagay x->teksto=007 -\n9007199254740992 ipakita x+0;").Prints (-9007199254740985) := by
  have hfits : sevenMinusBound.Fits := by
    refine ⟨by decide +kernel, fun k => ?_⟩
    rcases k with _ | _ | k
    · decide +kernel
    · decide +kernel
    · have hall : sevenMinusBound.links.take (k + 2) = sevenMinusBound.links :=
        List.take_of_length_le (Nat.le_add_left 2 k)
      rw [hall]
      decide +kernel
  have hresult : sevenMinusBound.result = -9007199254740985 := by decide +kernel
  have htext : "ipakita " ++ sevenMinusBound.text = "ipakita 007-9007199254740992+0" := by
    decide +kernel
  obtain ⟨hplain, hstored⟩ :=
    integer_calculations_are_exact sevenMinusBound hfits (Machine.fresh none) false
  obtain ⟨-, hsplit⟩ := hstored [] [Token.semicolon] (.inl rfl) (.inr rfl)
  obtain ⟨hone, -⟩ := hsplit 1 "x" "teksto" (.inl rfl)
  rw [hresult, htext] at hplain
  rw [hresult] at hone
  exact ⟨hfits, hplain, hone _ (hasTokens_iff.mpr (by decide +kernel))⟩

end Sources

end Bagay
