import Bagay.Proofs.Parser.Viability

/-!
# Numbers that cannot be read

The text of a number token may be any text, so that the parser may fail to read it. It does exactly
if the last token that it took is such a number: what it takes otherwise is a program or can be
completed to one, and all numbers of a program can be read.

* `Program.Spelled.isReadable`: all numbers of a program can be read.
* `Parser.program_result_cases`, `Parser.program_eq_badNumber_iff`: the failures of the parser.
* `Cursor.program_result_cases`, `Cursor.program_eq_badNumber_iff`: the same at a cursor, where the
  number stands in front of the position.
-/

namespace Bagay

/-- A token that is not a number that cannot be read. -/
def Token.IsReadable (read : String → Option Float) (t : Token) : Prop :=
  t.kind = .number → (read t.text).isSome

variable {read : String → Option Float}

/-! ### The numbers of a program can be read -/

theorem Token.isReadable_of_ne {k : Token.Kind} (h : k ≠ .number) (text : String) :
    Token.IsReadable read ⟨k, text⟩ :=
  fun hk => absurd hk h

theorem Token.IsOperand.isReadable {t : Token} {e : Expr} (h : t.IsOperand read e) :
    t.IsReadable read := by
  cases h with
  | number h => exact fun _ => by simp [h]
  | text s => exact isReadable_of_ne (by decide) s
  | name n => exact isReadable_of_ne (by decide) n

theorem Program.Spelled.isReadable {A : List Stmt} {w : Nat} {ts : List Token}
    (h : Program.Spelled read A w ts) : ∀ t ∈ ts, t.IsReadable read :=
  h.forall_mem (fun _ _ ht => ht.isReadable) (fun w => Token.isReadable_of_ne (by decide) w)
    fun s => Token.isReadable_of_ne (by decide) s

/-! ### Parsing -/

namespace Parser

variable {ts taken rest : List Token} {n : Nat} {text : String}

theorem program_result_cases {r : Except ParseError (List Stmt)}
    (h : program read ts = ⟨r, rest, n⟩) :
    (∃ A, r = .ok A) ∨ (∃ e, r = .error e ∧ e.IsSyntax) ∨ ∃ text, r = .error (.badNumber text) := by
  rcases r with e | A
  · cases blames_program ts h with
    | token hn => exact .inr (.inl ⟨e, rfl, hn.isSyntax⟩)
    | @number text _ _ _ => exact .inr (.inr ⟨text, rfl⟩)
  · exact .inl ⟨A, rfl⟩

theorem badNumber_taken (h : program read (taken ++ rest) = ⟨.error (.badNumber text), rest, n⟩) :
    ∃ before, taken = before ++ [⟨.number, text⟩] ∧ read text = none := by
  cases blames_program _ h with
  | token hn => cases hn
  | number before hread hts =>
    refine ⟨before, ?_, hread⟩
    rw [← List.singleton_append, ← List.append_assoc] at hts
    exact List.append_cancel_right hts

/-- Unless a number could not be read, what the parser took is readable: it is a program, or can be
completed to one. -/
theorem isReadable_of_taken {r : Except ParseError (List Stmt)}
    (h : program read (taken ++ rest) = ⟨r, rest, n⟩)
    (hr : (∃ A, r = .ok A) ∨ ∃ e, r = .error e ∧ e.IsSyntax) :
    ∀ t ∈ taken, t.IsReadable read := by
  intro t ht
  rcases hr with ⟨A, rfl⟩ | ⟨e, rfl, he⟩
  · exact (program_sound h).1.isReadable t (List.mem_append_left rest ht)
  · obtain ⟨c, A, w, hA⟩ := program_completable h he
    exact hA.isReadable t (List.mem_append_left c ht)

/-- The parser meets a number that it cannot read exactly if this is the last token it took. -/
theorem program_eq_badNumber_iff {r : Except ParseError (List Stmt)}
    (h : program read (taken ++ rest) = ⟨r, rest, n⟩) :
    r = .error (.badNumber text) ↔
      ∃ before, taken = before ++ [⟨.number, text⟩] ∧ read text = none := by
  constructor
  · rintro rfl
    exact badNumber_taken h
  · rintro ⟨before, htaken, hread⟩
    rcases program_result_cases h with hok | hsyntax | ⟨text', rfl⟩
    · have := isReadable_of_taken h (.inl hok) ⟨.number, text⟩ (by simp [htaken]) rfl
      simp [hread] at this
    · have := isReadable_of_taken h (.inr hsyntax) ⟨.number, text⟩ (by simp [htaken]) rfl
      simp [hread] at this
    · obtain ⟨before', htaken', -⟩ := badNumber_taken h
      have hlast := List.append_inj_right' (htaken.symm.trans htaken') rfl
      cases hlast
      rfl

end Parser

theorem getElem?_pred_iff {taken rest : List Token} {t : Token} :
    (1 ≤ taken.length ∧ (taken ++ rest)[taken.length - 1]? = some t) ↔
      ∃ before, taken = before ++ [t] := by
  rcases List.eq_nil_or_concat taken with rfl | ⟨before, t', rfl⟩
  · simp
  · simp [eq_comm]

namespace Cursor

variable (read) in
theorem program_result_cases (ts : List Token) :
    let a := (start ts).perform read .program
    (∃ A, a.result = .ok (.program A)) ∨ (∃ e, a.result = .error e ∧ e.IsSyntax) ∨
      ∃ text, a.result = .error (.badNumber text) := by
  intro a
  obtain ⟨taken, rest, r, n, rfl, ho, ha, -⟩ := exists_taken read ts
  rcases Parser.program_result_cases ho with ⟨A, rfl⟩ | ⟨e, rfl, he⟩ | ⟨text, rfl⟩
  · exact .inl ⟨A, ha⟩
  · exact .inr (.inl ⟨e, ha, he⟩)
  · exact .inr (.inr ⟨text, ha⟩)

theorem program_eq_badNumber_iff {ts : List Token} {text : String} :
    let a := (start ts).perform read .program
    let p := a.cursor.position
    a.result = .error (.badNumber text) ↔
      1 ≤ p ∧ ts[p - 1]? = some ⟨.number, text⟩ ∧ read text = none := by
  intro a p
  obtain ⟨taken, rest, r, n, rfl, ho, -, hposition⟩ := exists_taken read ts
  have hp : p = taken.length := hposition
  have hr : a.result = .error (.badNumber text) ↔ r = .error (.badNumber text) := by
    rw [result_eq_error_iff, ho]
  rw [hr, Parser.program_eq_badNumber_iff ho, hp, ← and_assoc, getElem?_pred_iff, exists_and_right]

end Cursor

end Bagay
