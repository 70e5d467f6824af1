import Bagay.Machine
import Bagay.Proofs.Decimal.Reading
import Bagay.Proofs.Text.SelfDelimiting

/-!
# Listings are unambiguous

The records of a run list its tokens and its statements in written form, with texts that may look
like written forms themselves. Still a listing determines what it lists: every written form is
self-delimiting, by induction on nodes, where the induction hypothesis is used in front of whatever
follows a part inside its node.

* `selfDelimiting_token`, `selfDelimiting_node`: tokens and nodes.
* `listings_are_unambiguous`: the result for lists of them and for the records.
-/

namespace Bagay

open Text (quote bracketed selfDelimiting_quote quote_append_ne)

variable {r r' : List Char}

/-- A float ends at the closing parenthesis behind it. -/
theorem display_close_inj {x y : Float}
    (h : (Decimal.display x).toList ++ ')' :: r = (Decimal.display y).toList ++ ')' :: r') :
    x = y ∧ r = r' := by
  have hclose : ∀ x : Float, ')' ∉ (Decimal.display x).toList := by
    intro x hmem
    rcases Decimal.mem_display hmem with hdigit | hmark
    · revert hdigit
      decide
    · revert hmark
      decide
  obtain ⟨hxy, hr⟩ := append_cons_inj_of_not_mem (hclose x) (hclose y) h
  exact ⟨Decimal.display_injective (String.toList_injective hxy), hr⟩

/-- The written form of an operator that the language has. -/
def Op.label : Op → String
  | add => "<Op.ADD: '+'>"
  | sub => "<Op.SUB: '-'>"

theorem Op.written_cases (s : String) :
    (∃ op : Op, s = op.symbol ∧ Op.written s = op.label) ∨ Op.written s = quote s := by
  rcases hs : Op.ofSymbol? s with _ | op
  · refine .inr ?_
    rw [Op.written, hs]
  · refine .inl ⟨op, Op.ofSymbol?_eq_some_iff.mp hs, ?_⟩
    rw [Op.written, hs]
    cases op <;> rfl

theorem Op.toList_label_append (op : Op) (r : List Char) :
    ∃ cs, op.label.toList ++ r = '<' :: cs := by
  cases op <;> exact ⟨_, rfl⟩

theorem selfDelimiting_op : SelfDelimiting Op.written := by
  have hquote : ∀ (op : Op) (s : String) (r r' : List Char),
      op.label.toList ++ r ≠ (quote s).toList ++ r' := by
    intro op s r r' h
    obtain ⟨cs, hcs⟩ := op.toList_label_append r
    rw [hcs] at h
    exact quote_append_ne (by decide) s r' cs h.symm
  have hlabel : ∀ op op' : Op, op.label.toList <+: op'.label.toList → op = op' := by
    intro op op'
    cases op <;> cases op' <;> decide
  intro s t r r' h
  rcases Op.written_cases s with ⟨op, rfl, hs⟩ | hs <;>
    rcases Op.written_cases t with ⟨op', rfl, ht⟩ | ht <;> rw [hs, ht] at h
  · obtain rfl : op = op' := by
      rcases List.prefix_or_prefix_of_prefix ⟨r, rfl⟩ ⟨r', h.symm⟩ with hp | hp
      · exact hlabel op op' hp
      · exact (hlabel op' op hp).symm
    exact ⟨rfl, List.append_cancel_left h⟩
  · exact absurd h (hquote op t r r')
  · exact absurd h.symm (hquote op' s r' r)
  · exact selfDelimiting_quote s h

theorem selfDelimiting_token : SelfDelimiting Token.written := by
  have hcomma : ∀ k : Token.Kind, ',' ∉ k.name.toList := by
    intro k
    cases k <;> decide
  rintro ⟨k, s⟩ ⟨l, t⟩ r r' h
  have hparts : k.name.toList ++ ',' :: ' ' :: ((quote s).toList ++ ')' :: r) =
      l.name.toList ++ ',' :: ' ' :: ((quote t).toList ++ ')' :: r') := by
    simpa [Token.written] using h
  obtain ⟨hkind, htext⟩ := append_cons_inj_of_not_mem (hcomma k) (hcomma l) hparts
  obtain rfl := Token.Kind.name_injective (String.toList_injective hkind)
  obtain ⟨rfl, hclose⟩ := selfDelimiting_quote s (List.cons.inj htext).2
  exact ⟨rfl, (List.cons.inj hclose).2⟩

namespace Node

/-! ### How nodes start -/

/-- How the written form of a node starts, up to its first part. A bare text is all part. -/
def opening : Node → String
  | number _ => "NumberLiteral(value="
  | text _ => "StringLiteral(value="
  | name _ => "Identifier(name="
  | binary .. => "BinaryExpression(operator="
  | declare .. => "VariableDeclaration(name="
  | print _ => "PrintStatement(value="
  | value (.number _) => "Number(value="
  | value (.text _) => "Text(value="
  | token _ => "Token("
  | bare _ => ""
  | absent => "None"

/-- The openings that are not empty. -/
def openings : List String :=
  ["NumberLiteral(value=", "StringLiteral(value=", "Identifier(name=", "BinaryExpression(operator=",
    "VariableDeclaration(name=", "PrintStatement(value=", "Number(value=", "Text(value=", "Token(",
    "None"]

theorem openings_prefixFree :
    ∀ u ∈ openings, ∀ v ∈ openings, u.toList <+: v.toList → u = v := by
  decide +kernel

theorem head?_of_mem_openings : ∀ u ∈ openings, u.toList.head?.any Char.isAlpha := by
  decide +kernel

/-- What follows the opening of a node, in front of the text `r`. -/
def body (r : List Char) : Node → List Char
  | number x => (Decimal.display x).toList ++ ')' :: r
  | text s => (quote s).toList ++ ')' :: r
  | name n => (quote n).toList ++ ')' :: r
  | binary symbol left right => (Op.written symbol).toList ++ (", left=".toList ++
      (left.written.toList ++ (", right=".toList ++ (right.written.toList ++ ')' :: r))))
  | declare n type v => (quote n).toList ++ (", declared_type=".toList ++ ((quote type).toList ++
      (", value=".toList ++ (v.written.toList ++ ')' :: r))))
  | print v => v.written.toList ++ ')' :: r
  | value (.number x) => (Decimal.display x).toList ++ ')' :: r
  | value (.text s) => (quote s).toList ++ ')' :: r
  | token t => t.kind.name.toList ++ (", ".toList ++ ((quote t.text).toList ++ ')' :: r))
  | bare s => (quote s).toList ++ r
  | absent => r

theorem toList_append_close (u v : String) (r : List Char) :
    (u ++ v ++ ")").toList ++ r = u.toList ++ (v.toList ++ ')' :: r) := by
  simp

theorem toList_written_append (n : Node) (r : List Char) :
    n.written.toList ++ r = n.opening.toList ++ n.body r := by
  cases n with
  | number x => exact toList_append_close _ _ r
  | text s => exact toList_append_close _ _ r
  | name n => exact toList_append_close _ _ r
  | binary symbol left right =>
    show ("BinaryExpression(operator=" ++ Op.written symbol ++ ", left=" ++ left.written ++
      ", right=" ++ right.written ++ ")").toList ++ r = _
    rw [toList_append_close]
    simp only [String.toList_append, List.append_assoc]
    rfl
  | declare n type v =>
    show ("VariableDeclaration(name=" ++ quote n ++ ", declared_type=" ++ quote type ++
      ", value=" ++ v.written ++ ")").toList ++ r = _
    rw [toList_append_close]
    simp only [String.toList_append, List.append_assoc]
    rfl
  | print v => exact toList_append_close _ _ r
  | value v => cases v <;> exact toList_append_close _ _ r
  | token t =>
    show ("Token(" ++ t.kind.name ++ ", " ++ quote t.text ++ ")").toList ++ r = _
    rw [toList_append_close]
    simp only [String.toList_append, List.append_assoc]
    rfl
  | bare s =>
    show (quote s).toList ++ r = "".toList ++ ((quote s).toList ++ r)
    rw [String.toList_empty, List.nil_append]
  | absent =>
    show "None".toList ++ r = "None".toList ++ r
    rfl

/-- Nodes whose written forms start alike. -/
inductive Alike : Node → Node → Prop
  | number (x y : Float) : Alike (number x) (number y)
  | text (s t : String) : Alike (text s) (text t)
  | name (m n : String) : Alike (name m) (name n)
  | binary (s t : String) (l l' r r' : Node) : Alike (binary s l r) (binary t l' r')
  | declare (m n t u : String) (v w : Node) : Alike (declare m t v) (declare n u w)
  | print (v w : Node) : Alike (print v) (print w)
  | numberValue (x y : Float) : Alike (value (.number x)) (value (.number y))
  | textValue (s t : String) : Alike (value (.text s)) (value (.text t))
  | token (t u : Token) : Alike (token t) (token u)
  | bare (s t : String) : Alike (bare s) (bare t)
  | absent : Alike absent absent

theorem alike_of_opening_eq {n n' : Node} (h : n.opening = n'.opening) : Alike n n' := by
  rcases n with x | s | s | _ | _ | _ | (x | s) | t | s | _ <;>
    rcases n' with x' | s' | s' | _ | _ | _ | (x' | s') | t' | s' | _ <;>
    first | constructor | (simp [opening] at h)

theorem bare_or_opening_mem (n : Node) : (∃ s, n = bare s) ∨ n.opening ∈ openings := by
  rcases n with _ | _ | _ | _ | _ | _ | (_ | _) | _ | s | _
  case bare => exact .inl ⟨s, rfl⟩
  all_goals exact .inr (by simp [opening, openings])

theorem exists_cons_written {n : Node} (hn : n.opening ∈ openings) (r : List Char) :
    ∃ c cs, n.written.toList ++ r = c :: cs ∧ c.isAlpha := by
  have hhead := head?_of_mem_openings _ hn
  obtain ⟨c, cs, hcs⟩ := List.exists_cons_of_ne_nil fun hnil : n.opening.toList = [] => by
    rw [hnil] at hhead
    cases hhead
  rw [hcs, List.head?_cons, Option.any_some] at hhead
  refine ⟨c, cs ++ n.body r, ?_, hhead⟩
  rw [toList_written_append, hcs, List.cons_append]

theorem written_append_ne_quote {n : Node} (hn : n.opening ∈ openings) (s : String)
    (r r' : List Char) : n.written.toList ++ r ≠ (quote s).toList ++ r' := by
  intro h
  obtain ⟨c, cs, hcs, halpha⟩ := exists_cons_written hn r
  have hquote : ∀ d, d.isAlpha = false → c ≠ d := by
    rintro d hd rfl
    rw [hd] at halpha
    cases halpha
  rw [hcs] at h
  exact quote_append_ne ⟨hquote '\'' (by decide), hquote '"' (by decide)⟩ s r' cs h.symm

theorem written_append_ne_bracket (n : Node) (r r' : List Char) :
    n.written.toList ++ r ≠ ']' :: r' := by
  rcases bare_or_opening_mem n with ⟨s, rfl⟩ | hn
  · exact quote_append_ne (by decide) s r r'
  · obtain ⟨c, cs, hcs, halpha⟩ := exists_cons_written hn r
    intro h
    rw [hcs] at h
    obtain ⟨rfl, -⟩ := List.cons.inj h
    revert halpha
    decide

/-- Nodes with equal written forms, whatever follows them, start alike. -/
theorem alike_of_written {n n' : Node} {r r' : List Char}
    (h : n.written.toList ++ r = n'.written.toList ++ r') : Alike n n' := by
  rcases bare_or_opening_mem n with ⟨s, rfl⟩ | hn <;>
    rcases bare_or_opening_mem n' with ⟨s', rfl⟩ | hn'
  · exact .bare s s'
  · exact absurd h.symm (written_append_ne_quote hn' s r' r)
  · exact absurd h (written_append_ne_quote hn s' r r')
  · rw [toList_written_append, toList_written_append] at h
    refine alike_of_opening_eq ?_
    rcases List.prefix_or_prefix_of_prefix ⟨_, rfl⟩ ⟨_, h.symm⟩ with hp | hp
    · exact openings_prefixFree _ hn _ hn' hp
    · exact (openings_prefixFree _ hn' _ hn hp).symm

theorem Alike.opening_eq {n n' : Node} (h : Alike n n') : n.opening = n'.opening := by
  cases h <;> rfl

theorem body_eq_of_written {n n' : Node} {r r' : List Char}
    (h : n.written.toList ++ r = n'.written.toList ++ r') : n.body r = n'.body r' := by
  have hopening := (alike_of_written h).opening_eq
  rw [toList_written_append, toList_written_append, hopening] at h
  exact List.append_cancel_left h

end Node

/-- **Nodes** are self-delimiting. -/
theorem selfDelimiting_node : SelfDelimiting Node.written := by
  intro n
  induction n with
  | number x =>
    intro n' r r' h
    have hbody := Node.body_eq_of_written h
    cases Node.alike_of_written h with
    | number _ y =>
      obtain ⟨rfl, hr⟩ := display_close_inj hbody
      exact ⟨rfl, hr⟩
  | text s =>
    intro n' r r' h
    have hbody := Node.body_eq_of_written h
    cases Node.alike_of_written h with
    | text _ t =>
      obtain ⟨rfl, hr⟩ := (selfDelimiting_quote s).append_inj [')'] hbody
      exact ⟨rfl, hr⟩
  | name m =>
    intro n' r r' h
    have hbody := Node.body_eq_of_written h
    cases Node.alike_of_written h with
    | name _ n =>
      obtain ⟨rfl, hr⟩ := (selfDelimiting_quote m).append_inj [')'] hbody
      exact ⟨rfl, hr⟩
  | binary symbol left right ihl ihr =>
    intro n' r r' h
    have hbody := Node.body_eq_of_written h
    cases Node.alike_of_written h with
    | binary _ symbol' _ left' _ right' =>
      obtain ⟨rfl, hleft⟩ := (selfDelimiting_op symbol).append_inj _ hbody
      obtain ⟨rfl, hright⟩ := ihl.append_inj _ hleft
      obtain ⟨rfl, hr⟩ := ihr.append_inj [')'] hright
      exact ⟨rfl, hr⟩
  | declare m type v ih =>
    intro n' r r' h
    have hbody := Node.body_eq_of_written h
    cases Node.alike_of_written h with
    | declare _ n _ type' _ w =>
      obtain ⟨rfl, htype⟩ := (selfDelimiting_quote m).append_inj _ hbody
      obtain ⟨rfl, hvalue⟩ := (selfDelimiting_quote type).append_inj _ htype
      obtain ⟨rfl, hr⟩ := ih.append_inj [')'] hvalue
      exact ⟨rfl, hr⟩
  | print v ih =>
    intro n' r r' h
    have hbody := Node.body_eq_of_written h
    cases Node.alike_of_written h with
    | print _ w =>
      obtain ⟨rfl, hr⟩ := ih.append_inj [')'] hbody
      exact ⟨rfl, hr⟩
  | value v =>
    intro n' r r' h
    have hbody := Node.body_eq_of_written h
    cases Node.alike_of_written h with
    | numberValue x y =>
      obtain ⟨rfl, hr⟩ := display_close_inj hbody
      exact ⟨rfl, hr⟩
    | textValue s t =>
      obtain ⟨rfl, hr⟩ := (selfDelimiting_quote s).append_inj [')'] hbody
      exact ⟨rfl, hr⟩
  | token t =>
    intro n' r r' h
    cases Node.alike_of_written h with
    | token _ u =>
      obtain ⟨rfl, hr⟩ := selfDelimiting_token t h
      exact ⟨rfl, hr⟩
  | bare s =>
    intro n' r r' h
    cases Node.alike_of_written h with
    | bare _ t =>
      obtain ⟨rfl, hr⟩ := selfDelimiting_quote s h
      exact ⟨rfl, hr⟩
  | absent =>
    intro n' r r' h
    cases Node.alike_of_written h with
    | absent => exact ⟨rfl, List.append_cancel_left h⟩

/-! ### Expressions and statements as nodes -/

theorem Op.symbol_injective {op op' : Op} (h : op.symbol = op'.symbol) : op = op' := by
  have hop := Op.ofSymbol?_symbol op
  rw [h, Op.ofSymbol?_symbol] at hop
  exact (Option.some.inj hop).symm

theorem Expr.toNode_injective : Function.Injective Expr.toNode := by
  intro e
  induction e with
  | number x =>
    intro e' h
    cases e' <;> cases h
    rfl
  | text s =>
    intro e' h
    cases e' <;> cases h
    rfl
  | name n =>
    intro e' h
    cases e' <;> cases h
    rfl
  | binary op left right ihl ihr =>
    intro e' h
    cases e' with
    | binary op' left' right' =>
      obtain ⟨hop, hleft, hright⟩ := Node.binary.inj h
      rw [Op.symbol_injective hop, ihl hleft, ihr hright]
    | _ => cases h

theorem Stmt.toNode_injective : Function.Injective Stmt.toNode := by
  intro s s' h
  cases s with
  | declare name type value =>
    cases s' with
    | declare name' type' value' =>
      obtain ⟨rfl, rfl, hvalue⟩ := Node.declare.inj h
      rw [Expr.toNode_injective hvalue]
    | print value' => cases h
  | print value =>
    cases s' with
    | declare name' type' value' => cases h
    | print value' => rw [Expr.toNode_injective (Node.print.inj h)]

/-! ### Lists and records -/

theorem bracketed_token_inj {ts us : List Token} :
    bracketed (ts.map Token.written) = bracketed (us.map Token.written) ↔ ts = us :=
  Text.bracketed_inj selfDelimiting_token fun t r => (Node.token t).written_append_ne_bracket r []

theorem bracketed_node_inj {ms ns : List Node} :
    bracketed (ms.map Node.written) = bracketed (ns.map Node.written) ↔ ms = ns :=
  Text.bracketed_inj selfDelimiting_node fun n r => n.written_append_ne_bracket r []

theorem bracketed_stmt_inj {A B : List Stmt} :
    bracketed (A.map fun s => s.toNode.written) = bracketed (B.map fun s => s.toNode.written) ↔
      A = B := by
  have hmap : ∀ A : List Stmt, A.map (fun s => s.toNode.written) =
      (A.map Stmt.toNode).map Node.written := fun A => by rw [List.map_map]; rfl
  rw [hmap, hmap, bracketed_node_inj]
  exact (List.map_injective_iff.mpr Stmt.toNode_injective).eq_iff

/-- No two records have the same message: the first letter tells the kind of a record. -/
theorem Record.message_injective : Function.Injective Record.message := by
  intro p q h
  have hhead : p.message.toList.head? = q.message.toList.head? := by rw [h]
  have hcancel : ∀ {u v w : String}, u ++ v = u ++ w → v = w := by
    intro u v w h
    have hlist := congrArg String.toList h
    rw [String.toList_append, String.toList_append] at hlist
    exact String.toList_injective (List.append_cancel_left hlist)
  cases p with
  | unterminatedString =>
    cases q with
    | unterminatedString => rfl
    | _ => simp [Record.message] at hhead
  | missingSemicolon =>
    cases q with
    | missingSemicolon => rfl
    | _ => simp [Record.message] at hhead
  | tokens ts =>
    cases q with
    | tokens us => rw [bracketed_token_inj.mp (hcancel h)]
    | _ => simp [Record.message] at hhead
  | program A =>
    cases q with
    | program B => rw [bracketed_stmt_inj.mp (hcancel h)]
    | _ => simp [Record.message] at hhead
  | executing m =>
    cases q with
    | executing n => rw [selfDelimiting_node.injective (hcancel h)]
    | _ => simp [Record.message] at hhead

/-- **Listings** determine what they list: equal listings are of equal tokens, and of equal nodes,
with texts, names and operators of any kind. So are the listings of statements, and no two records
have the same message. -/
theorem listings_are_unambiguous :
    (∀ ts us : List Token,
      bracketed (ts.map Token.written) = bracketed (us.map Token.written) ↔ ts = us) ∧
    (∀ ms ns : List Node,
      bracketed (ms.map Node.written) = bracketed (ns.map Node.written) ↔ ms = ns) ∧
    (∀ A B : List Stmt, bracketed (A.map fun s => s.toNode.written) =
      bracketed (B.map fun s => s.toNode.written) ↔ A = B) ∧
    ∀ p q : Record, p.message = q.message ↔ p = q :=
  ⟨fun _ _ => bracketed_token_inj, fun _ _ => bracketed_node_inj, fun _ _ => bracketed_stmt_inj,
    fun _ _ => Record.message_injective.eq_iff⟩

/-- A text that looks like the end of its token and the start of another one. -/
example : bracketed ([⟨.string, "x'), Token(STRING, 'y"⟩].map Token.written) =
    "[Token(STRING, \"x'), Token(STRING, 'y\")]" := by
  decide +kernel

end Bagay
