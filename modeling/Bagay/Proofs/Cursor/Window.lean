import Bagay.Decimal.Numeral
import Bagay.Proofs.Cursor.Suffix
import Bagay.Proofs.Parser.Lookahead

/-!
# What a request looks at

A request at a cursor looks at the tokens from the position of the cursor up to the position where
it stops, that one included, and at no other: neither at tokens that were taken before nor at tokens
further on. Whether it stops at the end of the tokens counts as looking there.

That tokens before the position play no part is a fact about the routines at a cursor, which follow
the routines on lists (`perform_eq_run`). How far they look is a fact about the latter: every
request has a routine, also a query, which takes nothing, and one lemma about routines with one
token of lookahead covers all of them.

* `singleLookahead_routine`: the routine of a request looks one token ahead.
* `run_eq_of_agree`, `run_start_drop`: the run of such a routine on other tokens.
* `perform_looks_at_window`: the result.
-/

namespace Bagay

open Bagay.Parser

namespace Cursor

theorem singleLookahead_routine (read : String → Option Float) (q : Request) :
    SingleLookahead (q.routine read : Parser Reply) :=
  (compositional_singleLookahead read).routine (fun _ => singleLookahead_single _ _ _)
    (singleLookahead_program read) fun _ => singleLookahead_statement read

/-! ### Other tokens -/

/-- Tokens that agree with `taken ++ rest` up to the first token of `rest`, or to its end. -/
theorem exists_append_of_agree {us taken rest : List Token}
    (h : ∀ i, i ≤ taken.length → us[i]? = (taken ++ rest)[i]?) :
    ∃ rest', us = taken ++ rest' ∧ rest'.head? = rest.head? := by
  have htake : us.take taken.length = taken := by
    refine List.ext_getElem? fun i => ?_
    by_cases hi : i < taken.length
    · rw [List.getElem?_take_of_lt hi, h i (by omega), List.getElem?_append_left hi]
    · rw [List.getElem?_take_eq_none (by omega), List.getElem?_eq_none (by omega)]
  refine ⟨us.drop taken.length, ?_, ?_⟩
  · have hsplit := List.take_append_drop taken.length us
    rw [htake] at hsplit
    exact hsplit.symm
  · rw [List.head?_drop, h _ (Nat.le_refl _), List.getElem?_append_right (Nat.le_refl _),
      Nat.sub_self, List.head?_eq_getElem?]

variable {α : Type} {p : Parser α}

/-- A routine that looks one token ahead does the same on tokens that agree up to where it stops. -/
theorem run_eq_of_agree (hp : SingleLookahead p) (reply : α → Reply) {c c' : Cursor}
    (hpos : c'.position = c.position)
    (h : ∀ i, c.position ≤ i → i ≤ (c.run p reply).cursor.position →
      c'.tokens[i]? = c.tokens[i]?) :
    (c'.run p reply).result = (c.run p reply).result ∧
      (c'.run p reply).cursor.position = (c.run p reply).cursor.position ∧
      (c'.run p reply).missing = (c.run p reply).missing := by
  rcases ho : p c.rest with ⟨r, rest, n⟩
  obtain ⟨taken, htaken⟩ := hp.forward.suffix c.rest
  rw [ho] at htaken
  have hrest : c.rest = taken ++ rest := htaken.symm
  have hstop : (c.run p reply).cursor.position = c.position + taken.length :=
    position_run hrest ho reply
  have hagree : ∀ i, i ≤ taken.length → c'.rest[i]? = (taken ++ rest)[i]? := by
    intro i hi
    have hi' := h (c.position + i) (by omega) (by omega)
    rw [← hrest, Cursor.rest, Cursor.rest, List.getElem?_drop, List.getElem?_drop, hpos]
    exact hi'
  -- so the other tokens start with what was taken, and go on with the token that was looked at
  obtain ⟨rest', hrest', hhead⟩ := exists_append_of_agree hagree
  have ho' : p c'.rest = ⟨r, rest', n⟩ := by
    rw [hrest']
    exact hp.looksAhead c.rest hrest ho hhead
  have hstop' : (c'.run p reply).cursor.position = c'.position + taken.length :=
    position_run hrest' ho' reply
  refine ⟨?_, by omega, ?_⟩
  · simp only [run, ho, ho']
  · simp only [run, ho, ho']

theorem run_start_drop (p : Parser α) (reply : α → Reply) (c : Cursor) :
    ((start (c.tokens.drop c.position)).run p reply).result = (c.run p reply).result ∧
      ((start (c.tokens.drop c.position)).run p reply).cursor.position =
        (c.run p reply).cursor.position - c.position ∧
      ((start (c.tokens.drop c.position)).run p reply).missing = (c.run p reply).missing := by
  have hrest : (start (c.tokens.drop c.position)).rest = c.rest := rest_start _
  have hlen : (c.tokens.drop c.position).length = c.tokens.length - c.position :=
    List.length_drop
  unfold run
  rw [hrest]
  refine ⟨rfl, ?_, rfl⟩
  show (c.tokens.drop c.position).length - (p c.rest).rest.length =
    c.tokens.length - (p c.rest).rest.length - c.position
  omega

end Cursor

/-- **Windows**: a request at the position `c` that stops at the position `p` is answered in the
same way, with the same error if it fails, on all tokens that are the same from `c` up to and
including `p`, where the end of the tokens counts as one of them. So is the request at the first
token if the tokens before `c` are dropped. -/
theorem perform_looks_at_window (read : String → Option Float) (q : Cursor.Request)
    (ts : List Token) (c : Nat) (hc : c ≤ ts.length) :
    let a := (⟨ts, c, hc⟩ : Cursor).perform read q
    let p := a.cursor.position
    (∀ (ts' : List Token) (hc' : c ≤ ts'.length), (∀ i, c ≤ i → i ≤ p → ts'[i]? = ts[i]?) →
      let a' := (⟨ts', c, hc'⟩ : Cursor).perform read q
      a'.result = a.result ∧ a'.cursor.position = p ∧ a'.missing = a.missing) ∧
    let a' := (Cursor.start (ts.drop c)).perform read q
    a'.result = a.result ∧ a'.cursor.position = p - c ∧ a'.missing = a.missing := by
  simp only [Cursor.perform_eq_run]
  constructor
  · intro ts' hc' hagree
    exact Cursor.run_eq_of_agree (Cursor.singleLookahead_routine read q) id rfl hagree
  · exact Cursor.run_start_drop (q.routine read) id ⟨ts, c, hc⟩

/-- A sum whose second operand is missing, behind the word that prints. -/
def brokenSum : List Token :=
  [⟨.keyword, "ipakita"⟩, ⟨.string, "a"⟩, ⟨.operator, "+"⟩, ⟨.unknown, "?"⟩]

/-- The same sum behind another token and before one more. -/
def brokenSumElsewhere : List Token :=
  [⟨.number, "1e"⟩, ⟨.string, "a"⟩, ⟨.operator, "+"⟩, ⟨.unknown, "?"⟩, ⟨.string, "b"⟩]

theorem expr_in_brokenSumElsewhere :
    ((⟨brokenSum, 1, by decide⟩ : Cursor).perform Numeral.read? .expr).cursor.position = 3 ∧
    ((⟨brokenSumElsewhere, 1, by decide⟩ : Cursor).perform Numeral.read? .expr).result =
      ((⟨brokenSum, 1, by decide⟩ : Cursor).perform Numeral.read? .expr).result ∧
    ((⟨brokenSumElsewhere, 1, by decide⟩ : Cursor).perform Numeral.read? .expr).cursor.position =
      3 ∧
    ((Cursor.start (brokenSum.drop 1)).perform Numeral.read? .expr).cursor.position = 2 := by
  have hp : ((⟨brokenSum, 1, by decide⟩ : Cursor).perform Numeral.read? .expr).cursor.position =
      3 := by
    decide +kernel
  obtain ⟨hwindow, -, hdrop, -⟩ := perform_looks_at_window Numeral.read? .expr brokenSum 1
    (by decide)
  obtain ⟨hresult, hposition, -⟩ := hwindow brokenSumElsewhere (by decide) fun i hi hi' => by
    have hcases : i = 1 ∨ i = 2 ∨ i = 3 := by omega
    rcases hcases with rfl | rfl | rfl <;> rfl
  rw [hp] at hposition hdrop
  exact ⟨hp, hresult, hposition, hdrop⟩

end Bagay
