import Bagay.Program
import Bagay.Token

/-!
# Spellings

The tokens that a program can be spelled with. A spelling is a relation and not a function: a number
may have several texts, and the semicolon after a statement may be left out.

* `Token.IsOperand`: a number that can be read, a string or a name, each as a single token.
* `Expr.Spelled`: an operand, or an expression followed by an operator and an operand. The rule is
  left recursive, so that operators group from the left and a right operand is never composed.
* `Stmt.Spelled`: a declaration or a print statement, without the semicolon.
* `Program.Spelled`: statements one after the other, with the number of them that have no semicolon.

How the text of a number is read is a parameter, as for the parsing routines.
-/

namespace Bagay

/-- The token of an operator. -/
def Op.token (op : Op) : Token := ⟨.operator, op.symbol⟩

/-- The semicolon at the end of a statement. -/
def Token.semicolon : Token := ⟨.operator, ";"⟩

/-- A token that is an operand, with its expression. -/
inductive Token.IsOperand (read : String → Option Float) : Token → Expr → Prop
  | number {text : String} {x : Float} (h : read text = some x) :
      IsOperand read ⟨.number, text⟩ (.number x)
  | text (s : String) : IsOperand read ⟨.string, s⟩ (.text s)
  | name (n : String) : IsOperand read ⟨.identifier, n⟩ (.name n)

/-- The spellings of an expression. -/
inductive Expr.Spelled (read : String → Option Float) : Expr → List Token → Prop
  | operand {t : Token} {e : Expr} (h : t.IsOperand read e) : Spelled read e [t]
  | binary {left right : Expr} {ts : List Token} {t : Token} (op : Op)
      (hl : Spelled read left ts) (hr : t.IsOperand read right) :
      Spelled read (.binary op left right) (ts ++ [op.token, t])

/-- The spellings of a statement, without the semicolon. -/
inductive Stmt.Spelled (read : String → Option Float) : Stmt → List Token → Prop
  | declare {type : String} {value : Expr} {ts : List Token} (name : String)
      (ht : type = "teksto" ∨ type = "bilang") (hv : value.Spelled read ts) :
      Spelled read (.declare name type value)
        (⟨.keyword, "bagay"⟩ :: ⟨.identifier, name⟩ :: ⟨.operator, "->"⟩ :: ⟨.keyword, type⟩ ::
          ⟨.operator, "="⟩ :: ts)
  | print {value : Expr} {ts : List Token} (hv : value.Spelled read ts) :
      Spelled read (.print value) (⟨.keyword, "ipakita"⟩ :: ts)

/-- The spellings of a list of statements of which the given number have no semicolon. -/
inductive Program.Spelled (read : String → Option Float) : List Stmt → Nat → List Token → Prop
  | nil : Spelled read [] 0 []
  | closed {s : Stmt} {ss : List Stmt} {w : Nat} {ts us : List Token} (hs : s.Spelled read ts)
      (hss : Spelled read ss w us) : Spelled read (s :: ss) w (ts ++ Token.semicolon :: us)
  | bare {s : Stmt} {ss : List Stmt} {w : Nat} {ts us : List Token} (hs : s.Spelled read ts)
      (hss : Spelled read ss w us) : Spelled read (s :: ss) (w + 1) (ts ++ us)

variable {read : String → Option Float}

theorem Stmt.Spelled.head?_eq {s : Stmt} {ts : List Token} (h : s.Spelled read ts) :
    ∃ w us, (w = "bagay" ∨ w = "ipakita") ∧ ts = ⟨.keyword, w⟩ :: us := by
  cases h with
  | declare name ht hv => exact ⟨"bagay", _, .inl rfl, rfl⟩
  | print hv => exact ⟨"ipakita", _, .inr rfl, rfl⟩

theorem Program.Spelled.kind_of_mem_head? {ss : List Stmt} {w : Nat} {ts : List Token}
    (h : Program.Spelled read ss w ts) : ∀ t ∈ ts.head?, t.kind = .keyword := by
  cases h with
  | nil => simp
  | closed hs hss =>
    obtain ⟨w, us, -, rfl⟩ := hs.head?_eq
    simp
  | bare hs hss =>
    obtain ⟨w, us, -, rfl⟩ := hs.head?_eq
    simp

/-! ### The tokens of a program

What holds of every operand, keyword and operator holds of every token of a program. The semicolon
is kept apart, since it stands behind statements and never inside of one. -/

section Tokens

variable {Q : Token → Prop} {ts : List Token}

theorem Expr.Spelled.forall_mem {e : Expr} (h : e.Spelled read ts)
    (hoperand : ∀ t e, t.IsOperand read e → Q t) (hoperator : ∀ s, s ≠ ";" → Q ⟨.operator, s⟩) :
    ∀ t ∈ ts, Q t := by
  induction h with
  | operand h => simpa using hoperand _ _ h
  | binary op hl hr ih =>
    have hop : Q op.token := hoperator op.symbol (by cases op <;> decide)
    simp only [List.mem_append, List.mem_cons, List.not_mem_nil, or_false]
    rintro t (ht | rfl | rfl)
    · exact ih t ht
    · exact hop
    · exact hoperand _ _ hr

theorem Stmt.Spelled.forall_mem {s : Stmt} (h : s.Spelled read ts)
    (hoperand : ∀ t e, t.IsOperand read e → Q t) (hkeyword : ∀ w, Q ⟨.keyword, w⟩)
    (hoperator : ∀ s, s ≠ ";" → Q ⟨.operator, s⟩) : ∀ t ∈ ts, Q t := by
  cases h with
  | @declare type value ts name htype hv =>
    simp only [List.forall_mem_cons]
    exact ⟨hkeyword "bagay", hoperand _ _ (.name name), hoperator "->" (by decide), hkeyword type,
      hoperator "=" (by decide), hv.forall_mem hoperand hoperator⟩
  | print hv =>
    rw [List.forall_mem_cons]
    exact ⟨hkeyword "ipakita", hv.forall_mem hoperand hoperator⟩

theorem Program.Spelled.forall_mem {A : List Stmt} {w : Nat} (h : Program.Spelled read A w ts)
    (hoperand : ∀ t e, t.IsOperand read e → Q t) (hkeyword : ∀ w, Q ⟨.keyword, w⟩)
    (hoperator : ∀ s, Q ⟨.operator, s⟩) : ∀ t ∈ ts, Q t := by
  have hstmt : ∀ {s : Stmt} {us}, s.Spelled read us → ∀ t ∈ us, Q t := fun hs =>
    hs.forall_mem hoperand hkeyword fun s _ => hoperator s
  induction h with
  | nil => simp
  | closed hs hss ih =>
    rw [List.forall_mem_append, List.forall_mem_cons]
    exact ⟨hstmt hs, hoperator ";", ih⟩
  | bare hs hss ih =>
    rw [List.forall_mem_append]
    exact ⟨hstmt hs, ih⟩

end Tokens

theorem Program.Spelled.append {ss ss' : List Stmt} {w w' : Nat} {ts ts' : List Token}
    (h : Program.Spelled read ss w ts) (h' : Program.Spelled read ss' w' ts') :
    Program.Spelled read (ss ++ ss') (w + w') (ts ++ ts') := by
  induction h with
  | nil => simpa using h'
  | closed hs hss ih =>
    rw [List.append_assoc, List.cons_append]
    exact .closed hs ih
  | bare hs hss ih =>
    rw [List.append_assoc, Nat.add_right_comm]
    exact .bare hs ih

end Bagay
