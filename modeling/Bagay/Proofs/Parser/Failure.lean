import Bagay.Proofs.Parser.Routine

/-!
# How parsing fails

A routine that fails either names the first token that it leaves, or the last token that it took is
a number whose text cannot be read. `Blame` is this alternative, and `Blames p ts` says that it
holds of a failure of the routine `p` on the tokens `ts`. The only exception is the routine for a
statement when it is run after the last token, which the loop over the statements never does
(`blames_statement`, `blames_program`).

* `ParseError.Names.message_some`, `ParseError.Names.message_none`: a message ends with the token
  that its error names, and with the file.
* `Blames.bind`: a sequence fails only as its parts do; `compositional_blaming`: the routines of the
  grammar.
-/

namespace Bagay

/-- Errors of syntax: all but a number that cannot be read and a statement asked for after the last
token. -/
def ParseError.IsSyntax : ParseError → Prop
  | unexpected _ => True
  | refused _ _ => True
  | badNumber _ => False
  | noStatement => False

/-- The error is about the token `found`, or about the end of the input if there is none. -/
inductive ParseError.Names : ParseError → Option Token → Prop
  | unexpected {found : Option Token} : Names (unexpected found) found
  | refused {message : String} {found : Option Token} : Names (refused message found) found

theorem ParseError.Names.isSyntax {e : ParseError} {found : Option Token} (h : e.Names found) :
    e.IsSyntax := by
  cases h <;> trivial

theorem ParseError.Names.message_eq {e : ParseError} {found : Option Token} (h : e.Names found)
    (file : Option String) : ∃ m, e.message file = m ++ (describe found ++ place file) := by
  cases h with
  | unexpected => exact ⟨_, @String.append_assoc "Unexpected token " (describe found) (place file)⟩
  | @refused text =>
    exact ⟨_, @String.append_assoc (text ++ ", found ") (describe found) (place file)⟩

/-- The message of an error that names a token ends with the text of the token and the file. -/
theorem ParseError.Names.message_some {e : ParseError} {t : Token} (h : e.Names (some t))
    (file : Option String) :
    ∃ m, e.message file = m ++ ("'" ++ t.text ++ "' in " ++ file.getD "None") := by
  obtain ⟨m, hm⟩ := h.message_eq file
  have hquote : "'" ++ " in " = "' in " := by decide
  refine ⟨m, hm.trans (congrArg (m ++ ·) ?_)⟩
  rw [describe, place, @String.append_assoc ("'" ++ t.text) "'", ← @String.append_assoc "'" " in ",
    hquote, ← @String.append_assoc ("'" ++ t.text) "' in "]

theorem ParseError.Names.message_none {e : ParseError} (h : e.Names none) (file : Option String) :
    ∃ m, e.message file = m ++ ("end of input in " ++ file.getD "None") := by
  obtain ⟨m, hm⟩ := h.message_eq file
  have hend : "end of input" ++ " in " = "end of input in " := by decide
  refine ⟨m, hm.trans (congrArg (m ++ ·) ?_)⟩
  rw [describe, place, ← @String.append_assoc "end of input" " in ", hend]

namespace Parser

variable {α β : Type} {read : String → Option Float} {p : Parser α} {f : α → Parser β}
  {ts rest : List Token}

/-- Why a routine that left `rest` of the tokens `ts` failed. -/
inductive Blame (read : String → Option Float) (ts rest : List Token) : ParseError → Prop
  | token {e : ParseError} (h : e.Names rest.head?) : Blame read ts rest e
  | number {text : String} (taken : List Token) (h : read text = none)
      (hts : ts = taken ++ ⟨.number, text⟩ :: rest) : Blame read ts rest (.badNumber text)

theorem Blame.names {e : ParseError} (h : Blame read ts rest e) (he : e.IsSyntax) :
    e.Names rest.head? := by
  cases h with
  | token h => exact h
  | number => cases he

theorem Blame.append {e : ParseError} (h : Blame read ts rest e) (us : List Token) :
    Blame read (us ++ ts) rest e := by
  cases h with
  | token h => exact .token h
  | number taken h hts => exact .number (us ++ taken) h (by rw [hts, List.append_assoc])

/-- A failure on `ts` has one of the two reasons. -/
def Blames (read : String → Option Float) (p : Parser α) (ts : List Token) : Prop :=
  ∀ ⦃e rest n⦄, p ts = ⟨.error e, rest, n⟩ → Blame read ts rest e

theorem Blames.bind (hfw : Forward p) (hp : Blames read p ts)
    (hf : ∀ a mid k, p ts = ⟨.ok a, mid, k⟩ → Blames read (f a) mid) :
    Blames read (p >>= f) ts := by
  intro e rest n h
  rcases bind_cases h with ⟨e', he', he⟩ | ⟨a, mid, k, m, ha, hr, -⟩
  · cases he'
    exact hp he
  · obtain ⟨taken, htaken⟩ := hfw.suffix ts
    rw [ha] at htaken
    rw [← htaken]
    exact (hf a mid k ha hr).append taken

/-- A routine that goes forward, and whose failures have one of the two reasons. -/
structure Blaming (read : String → Option Float) (p : Parser α) : Prop where
  forward : Forward p
  blames : ∀ ts, Blames read p ts

theorem Blaming.bind (hp : Blaming read p) (hf : ∀ a, Blaming read (f a)) :
    Blaming read (p >>= f) where
  forward := hp.forward.bind fun a => (hf a).forward
  blames ts := (hp.blames ts).bind hp.forward fun a mid _ _ => (hf a).blames mid

/-! ### Single tokens -/

/-- A routine for a single token blames it, or a number that it takes. -/
theorem blaming_single {g : Token → Option (Except ParseError α)}
    {other : Option Token → Except ParseError α} {n : Nat}
    (hg : ∀ t e, g t = some (.error e) →
      ∃ text, t = ⟨.number, text⟩ ∧ read text = none ∧ e = .badNumber text)
    (hother : ∀ found e, other found = .error e → e.Names found) :
    Blaming read (single g other n) := by
  refine ⟨forward_single g other n, fun ts e rest k h => ?_⟩
  rcases single_eq_error h with ⟨rfl, he⟩ | ⟨t, rfl, he⟩
  · exact .token (hother _ e he)
  · obtain ⟨text, rfl, hread, rfl⟩ := hg t e he
    exact .number [] hread rfl

theorem blaming_pure (a : α) : Blaming read (pure a : Parser α) :=
  ⟨forward_pure a, fun _ _ _ _ h => by cases h⟩

theorem blaming_accept (g : Token → Option α) (message : String) :
    Blaming read (accept g message) := by
  refine blaming_single (fun t e h => by simp at h) fun found e h => ?_
  cases h
  exact .refused

theorem blaming_semicolon : Blaming read semicolon := by
  refine blaming_single (fun t e h => ?_) fun found e h => by cases h
  split at h <;> cases h

theorem blaming_unexpected : Blaming read (fail .unexpected : Parser α) := by
  refine blaming_single nofun fun found e h => ?_
  cases h
  exact .unexpected

theorem blaming_operand : Blaming read (operand read) :=
  blaming_single (fun _ _ => operand?_eq_error) fun found e h => by
    cases h
    exact .unexpected

/-! ### The grammar -/

theorem blames_operations (left : Expr) (ts : List Token) :
    Blames read (operations read left) ts := by
  induction left, ts using @operations_induction (List Token) _ read with
  | none left ts hop =>
    intro e rest n h
    rw [operations_of_none read hop] at h
    cases h
  | some left ts op hop ih =>
    rcases ts with _ | ⟨t, ts⟩
    · cases hop
    intro e rest n h
    rw [operations_of_some read hop] at h
    exact ((blaming_operand.blames ts).bind blaming_operand.forward ih h).append [t]

variable (read) in
theorem compositional_blaming :
    Compositional read fun α (p _ : Parser α) => Blaming read p where
  bind := Blaming.bind
  pure := blaming_pure
  accept := blaming_accept
  semicolon := blaming_semicolon
  operand := blaming_operand
  operations left := ⟨forward_operations read left, blames_operations left⟩

/-- A statement that is not asked for after the last token. -/
theorem blames_statement (t : Token) (ts : List Token) :
    Blames read (statement read) (t :: ts) :=
  ((compositional_blaming read).statementFrom_some blaming_unexpected t).blames (t :: ts)

theorem blames_program (ts : List Token) : Blames read (program read) ts := by
  induction ts using @program_induction (List Token) _ read with
  | none ts hts =>
    intro e rest n h
    rw [program_of_none read hts] at h
    cases h
  | some ts t hts ih =>
    intro e rest n h
    rw [program_of_some read hts] at h
    obtain ⟨us, rfl⟩ := List.head?_eq_some_iff.mp hts
    refine (blames_statement t us).bind (advances_statement read).forward (fun s mid i hs => ?_) h
    exact (ih s mid i hs).bind (forward_program read) fun _ _ _ _ => (blaming_pure _).blames _

end Parser

end Bagay
