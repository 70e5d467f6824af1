import Bagay.Proofs.Parser.Routine

/-!
# One token of lookahead

A routine looks at the tokens that it takes and at the first one that it leaves, and at no other.
So tokens after that one can be exchanged: the result, the rest and the number of missing semicolons
follow. `LooksAhead p ts` says so of the routine `p` on the tokens `ts`; it is stated for single
lists because the loops are run on shorter and shorter ones.

* `LooksAhead.bind`: a sequence looks ahead no further than its parts.
* `looksAhead_of_cons`: nor does a routine that takes its first token or leaves it.
* `compositional_singleLookahead`, `singleLookahead_statement`, `singleLookahead_program`: the
  routines of the grammar.
-/

namespace Bagay.Parser

variable {α β : Type} {p q : Parser α} {f : α → Parser β} {ts : List Token}

/-- On `ts`, the routine looks at no token beyond the first one that it leaves. -/
def LooksAhead (p : Parser α) (ts : List Token) : Prop :=
  ∀ ⦃taken rest rest' r n⦄, ts = taken ++ rest → p ts = ⟨r, rest, n⟩ → rest'.head? = rest.head? →
    p (taken ++ rest') = ⟨r, rest', n⟩

theorem head?_append_congr {rest rest' : List Token} (h : rest'.head? = rest.head?)
    (taken : List Token) : (taken ++ rest').head? = (taken ++ rest).head? := by
  rw [List.head?_append, List.head?_append, h]

/-- The first token may decide which routine is run. -/
theorem LooksAhead.congr (hq : LooksAhead q ts) (h : ∀ us, us.head? = ts.head? → p us = q us) :
    LooksAhead p ts := by
  intro taken rest rest' r n hts hp hhead
  rw [h ts rfl] at hp
  rw [h _ (by rw [hts]; exact head?_append_congr hhead taken)]
  exact hq hts hp hhead

/-- A routine may take the first token and leave the others to a second routine. -/
theorem LooksAhead.cons {t : Token} (hfw : Forward q) (hq : LooksAhead q ts)
    (h : ∀ us, p (t :: us) = q us) : LooksAhead p (t :: ts) := by
  intro taken rest rest' r n hts hp hhead
  obtain ⟨us, rfl, hus, hr⟩ := exists_taken_of_cons hfw (h ts) hts hp
  rw [List.cons_append, h]
  exact hq hus hr hhead

/-- **Sequences**: what the second part takes or looks at is behind what the first part takes. -/
theorem LooksAhead.bind (hfw : Forward p) (hfw' : ∀ a, Forward (f a)) (hp : LooksAhead p ts)
    (hf : ∀ a mid k, p ts = ⟨.ok a, mid, k⟩ → LooksAhead (f a) mid) : LooksAhead (p >>= f) ts := by
  intro taken rest rest' r n hts hb hhead
  rcases bind_cases hb with ⟨e, rfl, he⟩ | ⟨a, mid, k, m, ha, hr, rfl⟩
  · exact bind_of_error (hp hts he hhead)
  · obtain ⟨first, hfirst⟩ := hfw.suffix ts
    obtain ⟨second, hsecond⟩ := (hfw' a).suffix mid
    rw [ha] at hfirst
    rw [hr] at hsecond
    obtain rfl : first ++ second = taken := by
      rw [← hfirst, ← hsecond, ← List.append_assoc] at hts
      exact List.append_cancel_right hts
    have hmid : (second ++ rest').head? = mid.head? := by
      rw [← hsecond]; exact head?_append_congr hhead second
    rw [List.append_assoc, bind_of_ok (hp hfirst.symm ha hmid), hf a mid k ha hsecond.symm hr hhead]

/-- A routine that goes forward and looks one token ahead, whatever the tokens are. -/
structure SingleLookahead (p : Parser α) : Prop where
  forward : Forward p
  looksAhead : ∀ ts, LooksAhead p ts

theorem SingleLookahead.bind (hp : SingleLookahead p) (hf : ∀ a, SingleLookahead (f a)) :
    SingleLookahead (p >>= f) where
  forward := hp.forward.bind fun a => (hf a).forward
  looksAhead ts := (hp.looksAhead ts).bind hp.forward (fun a => (hf a).forward)
    fun a mid _ _ => (hf a).looksAhead mid

/-! ### Single tokens -/

theorem looksAhead_nil : LooksAhead p [] := by
  intro taken rest rest' r n hts hp hhead
  obtain ⟨rfl, rfl⟩ := List.append_eq_nil_iff.mp hts.symm
  obtain rfl : rest' = [] := by simpa using hhead
  exact hp

/-- A routine that takes or leaves a token by that token alone. -/
theorem looksAhead_of_cons
    (h : ∀ t, (∃ r n, ∀ us, p (t :: us) = ⟨r, us, n⟩) ∨ ∃ r n, ∀ us, p (t :: us) = ⟨r, t :: us, n⟩)
    (ts : List Token) : LooksAhead p ts := by
  rcases ts with _ | ⟨t, ts⟩
  · exact looksAhead_nil
  intro taken rest rest' r n hts hp hhead
  rcases h t with ⟨r', n', ht⟩ | ⟨r', n', ht⟩
  · rw [ht] at hp
    cases hp
    obtain rfl : [t] = taken := List.append_cancel_right hts
    exact ht rest'
  · rw [ht] at hp
    cases hp
    obtain rfl : taken = [] := by simpa using hts
    obtain ⟨us, rfl⟩ : ∃ us, rest' = t :: us := List.head?_eq_some_iff.mp hhead
    exact ht us

theorem singleLookahead_pure (a : α) : SingleLookahead (pure a : Parser α) where
  forward := forward_pure a
  looksAhead := looksAhead_of_cons fun _ => .inr ⟨.ok a, 0, fun _ => rfl⟩

theorem singleLookahead_single (f : Token → Option (Except ParseError α))
    (other : Option Token → Except ParseError α) (n : Nat) :
    SingleLookahead (single f other n : Parser α) := by
  refine ⟨forward_single f other n, looksAhead_of_cons fun t => ?_⟩
  rcases hf : f t with _ | r
  · exact .inr ⟨other (some t), n, single_cons_of_none hf⟩
  · exact .inl ⟨r, 0, single_cons_of_some hf⟩

/-! ### The grammar -/

section Grammar

variable (read : String → Option Float)

theorem looksAhead_operations (left : Expr) (ts : List Token) :
    LooksAhead (operations read left) ts := by
  induction left, ts using @operations_induction (List Token) _ read with
  | none left ts hop =>
    -- the loop ends at the first token, whatever follows
    refine ((singleLookahead_pure left).looksAhead ts).congr fun us hus => ?_
    exact operations_of_none read ((operator?_congr hus).trans hop) left
  | some left ts op hop ih =>
    rcases ts with _ | ⟨t, ts⟩
    · exact looksAhead_nil
    have hfo : Forward (operand read : Parser Expr) := (advances_operand read).forward
    have hfw : ∀ right, Forward (operations read (.binary op left right) : Parser Expr) :=
      fun right => forward_operations read _
    refine LooksAhead.cons (hfo.bind hfw) ?_ (operations_cons_of_some read left hop)
    exact ((singleLookahead_single _ _ _).looksAhead ts).bind hfo hfw ih

theorem compositional_singleLookahead :
    Compositional read fun α (p _ : Parser α) => SingleLookahead p where
  bind := SingleLookahead.bind
  pure := singleLookahead_pure
  accept _ _ := singleLookahead_single _ _ _
  semicolon := singleLookahead_single _ _ _
  operand := singleLookahead_single _ _ _
  operations left := ⟨forward_operations read left, looksAhead_operations read left⟩

theorem singleLookahead_statement : SingleLookahead (statement read : Parser Stmt) := by
  refine ⟨(advances_statement read).forward, fun ts => ?_⟩
  -- the first token decides which statement it is, and it is among the tokens looked at
  have hfrom := (compositional_singleLookahead read).statementFrom
    (fun _ => singleLookahead_single _ _ _) ts.head?
  refine (hfrom.looksAhead ts).congr fun us hus => ?_
  exact congrArg (statementFrom read · us) hus

theorem looksAhead_program (ts : List Token) : LooksAhead (program read) ts := by
  induction ts using @program_induction (List Token) _ read with
  | none ts hts =>
    obtain rfl : ts = [] := List.head?_eq_none_iff.mp hts
    exact looksAhead_nil
  | some ts t hts ih =>
    have hfs : ∀ s, Forward (program read >>= fun ss => pure (s :: ss) : Parser (List Stmt)) :=
      fun s => (forward_program read).bind fun ss => forward_pure _
    have hs := singleLookahead_statement read
    refine ((hs.looksAhead ts).bind hs.forward hfs fun s mid i hst => ?_).congr fun us hus => ?_
    · exact (ih s mid i hst).bind (forward_program read) (fun ss => forward_pure _)
        fun ss rest _ _ => (singleLookahead_pure _).looksAhead rest
    · exact program_of_some read (hus.trans hts)

theorem singleLookahead_program : SingleLookahead (program read : Parser (List Stmt)) :=
  ⟨forward_program read, looksAhead_program read⟩

end Grammar

end Bagay.Parser
