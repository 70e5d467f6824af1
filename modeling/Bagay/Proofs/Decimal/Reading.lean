import Bagay.Decimal.Numeral
import Bagay.Proofs.Decimal.Intervals
import Bagay.Proofs.Token.Munch
import Mathlib.Data.List.Basic

/-!
# Reading floats back

A written decimal is digits, with a point among them or without, and with a power of ten behind them
or without. It is read back as a number of the same value, in every layout. The shortest decimal of
a float rounds to this float and to no other, and so a float is determined by its text.

* `Written cs q`: the characters of a decimal of value `q`; `written_write`: those of a layout.
* `Written.magnitude?`: written decimals are read back.
* `Written.mem`, `mem_display`: the characters that a decimal and a float are written with.
* `display_injective`: no two floats have the same text.
-/

namespace Bagay

/-! ### Digits in front of other characters -/

namespace Numeral

variable {c : Char} {ds rest : List Char}

theorem isDigit_of_isDigit (h : c.isDigit) : isDigit c = true := by
  simp [isDigit, digit?_of_isDigit h]

theorem digitRun_append (h : ∀ c ∈ ds, c.isDigit) (hrest : ∀ c ∈ rest.head?, isDigit c = false) :
    digitRun (ds ++ rest) = (ds.map fun c => c.toNat - 48, rest) := by
  have hds : ∀ c ∈ ds, isDigit c := fun c hc => isDigit_of_isDigit (h c hc)
  have hself := congrArg Prod.fst (digitRun_eq_self h)
  rw [digitRun, List.takeWhile_eq_self_iff.mpr hds] at hself
  rw [digitRun, Lexeme.takeWhile_append_of_head? hds hrest,
    Lexeme.dropWhile_append_of_head? hds hrest]
  exact congrArg (·, rest) hself

end Numeral

namespace Decimal

open Exact (Canonical)
open Numeral (power?)

/-! ### The parts of a written decimal -/

/-- A power of ten, or nothing at all. -/
inductive IsPower : List Char → Int → Prop
  | absent : IsPower [] 0
  | power (width : Nat) (k : Int) : IsPower (power width k) k

/-- The characters of a decimal, and its value. -/
inductive Written : List Char → ℚ → Prop
  | mk {whole part tail : List Char} {k : Int} (hne : whole ≠ []) (hwhole : ∀ c ∈ whole, c.isDigit)
      (hpart : ∀ c ∈ part, c.isDigit) (htail : IsPower tail k) :
      Written (whole ++ (pointed part ++ tail))
        (Nat.ofDigitChars 10 (whole ++ part) 0 * 10 ^ (k - part.length))

variable {d : Decimal} {cs : List Char} {q r : ℚ} {c : Char} {k : Int}

theorem isDigit_of_mem_digits (hc : c ∈ d.digits) : c.isDigit :=
  Nat.isDigit_of_mem_toDigits (by decide) (by decide) hc

theorem isDigit_of_mem_replicate {n : Nat} (hc : c ∈ List.replicate n '0') : c.isDigit := by
  rw [List.eq_of_mem_replicate hc]
  rfl

theorem isDigit_of_mem_padded {width a : Nat} (hc : c ∈ padded width a) : c.isDigit := by
  rcases List.mem_append.mp hc with hc | hc
  · exact isDigit_of_mem_replicate hc
  · exact Nat.isDigit_of_mem_toDigits (by decide) (by decide) hc

theorem padded_ne_nil (width a : Nat) : padded width a ≠ [] :=
  List.append_ne_nil_of_right_ne_nil _ Nat.toDigits_ne_nil

theorem ofDigitChars_padded (width a : Nat) : Nat.ofDigitChars 10 (padded width a) 0 = a := by
  rw [padded, Nat.ofDigitChars_append, Nat.ofDigitChars_replicate_zero, Nat.mul_zero,
    Nat.ofDigitChars_ten_toDigits]

theorem pointed_of_ne_nil {part : List Char} (h : part ≠ []) : pointed part = '.' :: part := by
  cases part with
  | nil => exact absurd rfl h
  | cons c part => rfl

/-- A decimal without a fraction has zeros in front of its point. -/
theorem written_positional_ofNat (a j : Nat) :
    Written (positional ⟨a, .ofNat j⟩) (value ⟨a, .ofNat j⟩) := by
  have hwhole : ∀ c ∈ Nat.toDigits 10 a ++ List.replicate j '0', c.isDigit := by
    rw [List.forall_mem_append]
    exact ⟨fun c hc => Nat.isDigit_of_mem_toDigits (by decide) (by decide) hc,
      fun c hc => isDigit_of_mem_replicate hc⟩
  have hpart : ∀ c ∈ ['0'], c.isDigit := by simp
  have hne : Nat.toDigits 10 a ++ List.replicate j '0' ≠ [] :=
    List.append_ne_nil_of_left_ne_nil Nat.toDigits_ne_nil _
  have hwritten := Written.mk hne hwhole hpart .absent
  have hvalue : (Nat.ofDigitChars 10 (Nat.toDigits 10 a ++ List.replicate j '0' ++ ['0']) 0 : ℚ) *
      10 ^ ((0 : Int) - (['0'].length : Nat)) = value ⟨a, .ofNat j⟩ := by
    have hzero : ∀ n, Nat.ofDigitChars 10 ['0'] n = n * 10 := fun n => by
      simp [Nat.ofDigitChars_cons, Nat.mul_comm]
    rw [Nat.ofDigitChars_append, Nat.ofDigitChars_append, Nat.ofDigitChars_ten_toDigits,
      Nat.ofDigitChars_replicate_zero, hzero]
    simp only [value, Int.ofNat_eq_natCast, zpow_natCast, List.length_singleton, Nat.cast_one,
      zero_sub, zpow_neg_one]
    push_cast
    ring
  rw [hvalue] at hwritten
  exact hwritten

/-- A decimal with a fraction has zeros in front, so that a digit stands before its point. -/
theorem written_positional_negSucc (a j : Nat) :
    Written (positional ⟨a, .negSucc j⟩) (value ⟨a, .negSucc j⟩) := by
  have hpositional : positional ⟨a, .negSucc j⟩ =
      (let ds := padded (j + 2) a
      ds.take (ds.length - (j + 1)) ++ '.' :: ds.drop (ds.length - (j + 1))) := rfl
  have hnumber := ofDigitChars_padded (j + 2) a
  have hlength : j + 2 ≤ (padded (j + 2) a).length := by
    rw [padded, List.length_append, List.length_replicate]
    omega
  have hdigits : ∀ c ∈ padded (j + 2) a, c.isDigit := fun c hc =>
    isDigit_of_mem_padded hc
  rw [hpositional]
  generalize padded (j + 2) a = ds at hdigits hnumber hlength
  have hpart : (ds.drop (ds.length - (j + 1))).length = j + 1 := by
    rw [List.length_drop]
    omega
  have hne : ds.take (ds.length - (j + 1)) ≠ [] := by
    rw [← List.length_pos_iff, List.length_take]
    omega
  have hpoint := pointed_of_ne_nil (List.ne_nil_of_length_eq_add_one hpart)
  have hbehind : ∀ c ∈ ds.drop (ds.length - (j + 1)), c.isDigit := fun c hc =>
    hdigits c (List.mem_of_mem_drop hc)
  have hwritten := Written.mk hne (fun c hc => hdigits c (List.mem_of_mem_take hc)) hbehind .absent
  have hpower : (0 : Int) - ((j + 1 : Nat) : Int) = .negSucc j := by omega
  rw [List.take_append_drop, hnumber, hpart, hpower, hpoint, List.append_nil] at hwritten
  exact hwritten

theorem written_positional (d : Decimal) : Written d.positional d.value := by
  rcases d with ⟨a, j | j⟩
  · exact written_positional_ofNat a j
  · exact written_positional_negSucc a j

theorem written_scientific (width : Nat) (d : Decimal) : Written (d.scientific width) d.value := by
  have hdigits : d.digits.take 1 ++ d.digits.tail = d.digits := by
    rw [← List.drop_one, List.take_append_drop]
  have hlength : 0 < d.digits.length := Nat.length_toDigits_pos
  have hfirst : d.digits.take 1 ≠ [] := by
    rw [← List.length_pos_iff, List.length_take]
    omega
  have hbehind : ∀ c ∈ d.digits.tail, c.isDigit := fun c hc =>
    isDigit_of_mem_digits (List.mem_of_mem_tail hc)
  have hwritten := Written.mk hfirst (fun c hc => isDigit_of_mem_digits (List.mem_of_mem_take hc))
    hbehind (.power width d.magnitude)
  have hpower : d.magnitude - (d.digits.tail.length : Nat) = d.exponent := by
    rw [List.length_tail, magnitude]
    omega
  have htext : d.scientific width =
      d.digits.take 1 ++ (pointed d.digits.tail ++ power width d.magnitude) :=
    List.append_assoc ..
  have hnumber : Nat.ofDigitChars 10 d.digits 0 = d.coefficient := Nat.ofDigitChars_ten_toDigits
  rw [hdigits, hnumber, hpower] at hwritten
  rw [htext]
  exact hwritten

/-- A decimal is written with its value, whatever the layout. -/
theorem written_write (l : Layout) (d : Decimal) : Written (l.write d) d.value := by
  unfold Layout.write
  split
  · exact written_positional d
  · exact written_scientific l.powerDigits d

/-! ### Reading back -/

theorem isDigit_eq_false_of_isPower (h : IsPower cs k) :
    ∀ c ∈ cs.head?, Numeral.isDigit c = false := by
  cases h with
  | absent => simp
  | power width k =>
    rintro c ⟨⟩
    decide +kernel

theorem power?_of_isPower (h : IsPower cs k) : power? cs = some k := by
  cases h with
  | absent => rfl
  | power width k =>
    have hpower : Decimal.power width k = 'e' :: (if k < 0 then '-' else '+') ::
        padded width k.natAbs := rfl
    have hdigits : ∀ c ∈ padded width k.natAbs, c.isDigit :=
      fun c hc => isDigit_of_mem_padded hc
    have hnumber := ofDigitChars_padded width k.natAbs
    have hne := padded_ne_nil width k.natAbs
    rw [hpower]
    generalize padded width k.natAbs = ds
      at hdigits hnumber hne
    have hrun := Numeral.digitRun_eq_self hdigits
    have hsigned : Numeral.signed ((if k < 0 then '-' else '+') :: ds) = (decide (k < 0), ds) := by
      by_cases hk : k < 0 <;> simp [hk, Numeral.signed]
    have hvalue : (if k < 0 then -(k.natAbs : Int) else k.natAbs) = k := by
      split <;> omega
    obtain ⟨c, cs, rfl⟩ := List.exists_cons_of_ne_nil hne
    have hread := (Numeral.ofDigits_map (c :: cs)).trans hnumber
    rw [List.map_cons] at hrun hread
    simp only [power?, true_or, if_true, hsigned, hrun, hread, decide_eq_true_eq, hvalue]

/-- **Written decimals** are read back. -/
theorem Written.magnitude? (h : Written cs q) :
    ∃ a k, Numeral.magnitude? cs = some (a, k) ∧ (a : ℚ) * 10 ^ k = q := by
  obtain @⟨whole, part, tail, k, hne, hwhole, hpart, htail⟩ := h
  have hstop := isDigit_eq_false_of_isPower htail
  have hpower := power?_of_isPower htail
  have hpoint : ∀ c ∈ (pointed part ++ tail).head?, Numeral.isDigit c = false := by
    cases part with
    | nil => exact hstop
    | cons d part =>
      rintro c ⟨⟩
      decide +kernel
  have hfraction : Numeral.fraction (pointed part ++ tail) =
      (part.map fun c => c.toNat - 48, tail) := by
    cases part with
    | nil =>
      cases htail with
      | absent => rfl
      | power width k => rfl
    | cons d part => exact Numeral.digitRun_append hpart hstop
  refine ⟨_, _, ?_, rfl⟩
  have hsome : (whole.map fun c => c.toNat - 48) ++ (part.map fun c => c.toNat - 48) ≠ [] := by
    simp [hne]
  rw [Numeral.magnitude?, Numeral.digitRun_append hwhole hpoint]
  dsimp only
  rw [hfraction]
  dsimp only
  rw [if_neg hsome, hpower, ← List.map_append, Numeral.ofDigits_map, List.length_map]
  rfl

theorem Written.unique (h : Written cs q) (h' : Written cs r) : q = r := by
  obtain ⟨a, j, hread, rfl⟩ := h.magnitude?
  obtain ⟨b, k, hread', rfl⟩ := h'.magnitude?
  rw [hread] at hread'
  cases hread'
  rfl

/-! ### The characters of a float -/

theorem mem_power {width : Nat} (hc : c ∈ power width k) :
    c.isDigit ∨ c = 'e' ∨ c = '+' ∨ c = '-' := by
  rw [power, List.mem_cons, List.mem_cons] at hc
  rcases hc with rfl | rfl | hc
  · simp
  · split <;> simp
  · exact .inl (isDigit_of_mem_padded hc)

theorem Written.mem (h : Written cs q) (hc : c ∈ cs) :
    c.isDigit ∨ c = '.' ∨ c = 'e' ∨ c = '+' ∨ c = '-' := by
  obtain @⟨whole, part, tail, k, hne, hwhole, hpart, htail⟩ := h
  rw [List.mem_append, List.mem_append] at hc
  rcases hc with hc | hc | hc
  · exact .inl (hwhole c hc)
  · rcases part with _ | ⟨d, part⟩
    · cases hc
    · rcases List.mem_cons.mp hc with rfl | hc
      · exact .inr (.inl rfl)
      · exact .inl (hpart c hc)
  · cases htail with
    | absent => cases hc
    | power width k => exact (mem_power hc).imp_right .inr

theorem Written.exists_cons (h : Written cs q) : ∃ c ds, cs = c :: ds ∧ c.isDigit := by
  obtain @⟨whole, part, tail, k, hne, hwhole, hpart, htail⟩ := h
  obtain ⟨c, ds, rfl⟩ := List.exists_cons_of_ne_nil hne
  exact ⟨c, ds ++ (pointed part ++ tail), rfl, hwhole c List.mem_cons_self⟩

/-- The text of a float without its sign. -/
def unsigned : Exact → List Char
  | .nan => "nan".toList
  | .infinite _ => "inf".toList
  | .finite _ m e => layout.write (shortest m e)

/-- Whether the text of a float has a sign. -/
def hasSign : Exact → Bool
  | .nan => false
  | .infinite negative => negative
  | .finite negative _ _ => negative

theorem toList_display (x : Float) : (display x).toList =
    (if hasSign (.ofFloat x) then ['-'] else []) ++ unsigned (.ofFloat x) := by
  unfold display
  rcases Exact.ofFloat x with _ | negative | ⟨negative, m, e⟩
  · rfl
  · cases negative <;> rfl
  · cases negative <;> simp [sign, hasSign, unsigned]

/-- **The characters** of floats: digits, a point, a power of ten, signs, and the letters of the
names `inf` and `nan`. -/
theorem mem_display {x : Float} (hc : c ∈ (display x).toList) :
    c.isDigit ∨ c ∈ ['.', 'e', '+', '-', 'i', 'n', 'f', 'a'] := by
  have hname : ∀ c ∈ "nan".toList ++ "inf".toList,
      c ∈ ['.', 'e', '+', '-', 'i', 'n', 'f', 'a'] := by
    simp
  rw [toList_display, List.mem_append] at hc
  generalize Exact.ofFloat x = v at hc
  rcases hc with hc | hc
  · split at hc
    · rw [List.mem_singleton.mp hc]
      simp
    · cases hc
  · cases v with
    | nan => exact .inr (hname c (List.mem_append_left _ hc))
    | infinite negative => exact .inr (hname c (List.mem_append_right _ hc))
    | finite negative m e =>
      refine ((written_write layout (shortest m e)).mem hc).imp_right ?_
      simp only [List.mem_cons]
      rintro (h | h | h | h) <;> simp [h]

/-! ### A float is determined by its text -/

theorem head?_unsigned_ne (v : Exact) : (unsigned v).head? ≠ some '-' := by
  cases v with
  | nan => decide
  | infinite negative => exact (by decide : "inf".toList.head? ≠ some '-')
  | finite negative m e =>
    obtain ⟨c, ds, hcs, hdigit⟩ := (written_write layout (shortest m e)).exists_cons
    rw [unsigned, hcs, List.head?_cons]
    rintro ⟨⟩
    revert hdigit
    decide

/-- The sign and what follows it are determined by the text. -/
theorem sign_append_inj {s t : Bool} {us vs : List Char} (hus : us.head? ≠ some '-')
    (hvs : vs.head? ≠ some '-')
    (h : (if s then ['-'] else []) ++ us = (if t then ['-'] else []) ++ vs) : s = t ∧ us = vs := by
  cases s <;> cases t
  · exact ⟨rfl, h⟩
  · have hhead : us = '-' :: vs := h
    rw [hhead] at hus
    exact absurd rfl hus
  · have hhead : '-' :: us = vs := h
    rw [← hhead] at hvs
    exact absurd rfl hvs
  · exact ⟨rfl, List.cons_injective h⟩

/-- What a float can stand for: if it is a number, then zero, or a factor and a power of two that
floats have. -/
def IsFloat : Exact → Prop
  | .finite _ m e => m = 0 ∧ e = 0 ∨ 0 < m ∧ Canonical m e
  | _ => True

theorem isFloat_ofFloat (x : Float) : IsFloat (.ofFloat x) := by
  unfold Exact.ofFloat
  rcases hx : x.toModel.unpack with s | _ | s | ⟨s, m, e, hm⟩
  · trivial
  · trivial
  · exact .inl ⟨rfl, rfl⟩
  · exact .inr ⟨hm, Exact.canonical_of_unpack hx⟩

theorem eq_of_value_shortest {m n : Nat} {e f : Int} (hm : m = 0 ∧ e = 0 ∨ 0 < m ∧ Canonical m e)
    (hn : n = 0 ∧ f = 0 ∨ 0 < n ∧ Canonical n f)
    (h : (shortest m e).value = (shortest n f).value) : m = n ∧ e = f := by
  rcases hm with ⟨rfl, rfl⟩ | ⟨hm, hc⟩ <;> rcases hn with ⟨rfl, rfl⟩ | ⟨hn, hc'⟩
  · exact ⟨rfl, rfl⟩
  · have hpos := (roundsTo_shortest hn f).pos hn
    rw [← h, value_shortest_zero] at hpos
    exact absurd hpos (lt_irrefl 0)
  · have hpos := (roundsTo_shortest hm e).pos hm
    rw [h, value_shortest_zero] at hpos
    exact absurd hpos (lt_irrefl 0)
  · have hround := roundsTo_shortest hm e
    rw [h] at hround
    exact hround.unique (roundsTo_shortest hn f) hc hc'

theorem ne_write_of_head? {w : List Char} (hw : w.head?.any Char.isDigit = false) (m : Nat)
    (e : Int) : w ≠ layout.write (shortest m e) := by
  rintro rfl
  obtain ⟨c, ds, hcs, hdigit⟩ := (written_write layout (shortest m e)).exists_cons
  rw [hcs, List.head?_cons, Option.any_some, hdigit] at hw
  cases hw

theorem eq_of_unsigned_eq {v w : Exact} (hv : IsFloat v) (hw : IsFloat w)
    (hsign : hasSign v = hasSign w) (h : unsigned v = unsigned w) : v = w := by
  have hnan := ne_write_of_head? (w := "nan".toList) (by decide)
  have hinf := ne_write_of_head? (w := "inf".toList) (by decide)
  have hnames : "nan".toList ≠ "inf".toList := by decide
  cases v with
  | nan =>
    cases w with
    | nan => rfl
    | infinite t => exact absurd h hnames
    | finite t n f => exact absurd h (hnan n f)
  | infinite s =>
    cases w with
    | nan => exact absurd h.symm hnames
    | infinite t => exact congrArg Exact.infinite hsign
    | finite t n f => exact absurd h (hinf n f)
  | finite s m e =>
    cases w with
    | nan => exact absurd h.symm (hnan m e)
    | infinite t => exact absurd h.symm (hinf m e)
    | finite t n f =>
      have htext : layout.write (shortest m e) = layout.write (shortest n f) := h
      have hwritten := written_write layout (shortest n f)
      rw [← htext] at hwritten
      have hvalue := (written_write layout (shortest m e)).unique hwritten
      obtain ⟨rfl, rfl⟩ := eq_of_value_shortest hv hw hvalue
      exact congrArg (Exact.finite · m e) hsign

/-- **Floats** are determined by their texts. -/
theorem display_injective : Function.Injective display := by
  intro x y h
  have hlist := congrArg String.toList h
  rw [toList_display, toList_display] at hlist
  obtain ⟨hsign, htext⟩ := sign_append_inj (head?_unsigned_ne _) (head?_unsigned_ne _) hlist
  exact Exact.ofFloat_injective
    (eq_of_unsigned_eq (isFloat_ofFloat x) (isFloat_ofFloat y) hsign htext)

end Decimal

end Bagay
