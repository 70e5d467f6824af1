import Bagay.Text.Blank
import Bagay.Text.Digit

/-!
# Numerals

A numeral is a decimal number in the wide sense: an optional sign, digits with an optional point
among them, and an optional power of ten after the letter `e`. Single underscores may stand between
two digits, and the digits may be those of any script. The words `inf`, `infinity` and `nan` are
numerals too, in any mixture of cases. Blanks at both ends do not count.

* `Numeral.parse?`: the numeral that a text spells.
* `Numeral.toFloat`: its value, rounded to the nearest float.
* `Numeral.read?`: the two together, the reading of number literals.
* `Numeral.parse?_of_isDigit`: ASCII digits alone, at least one, are always a numeral.
-/

namespace Bagay

/-- A number as it is spelled. -/
inductive Numeral
  /-- Not a number. -/
  | nan
  /-- An infinity. -/
  | infinite (negative : Bool)
  /-- The number `± coefficient · 10 ^ exponent`. -/
  | decimal (negative : Bool) (coefficient : Nat) (exponent : Int)
  deriving DecidableEq, Repr

namespace Numeral

open Text (digit? trim)

/-- Whether a character is a digit. -/
def isDigit (c : Char) : Bool :=
  (digit? c).isSome

/-- The text without the underscores that stand between two digits. -/
def ungroup : List Char → List Char
  | a :: '_' :: b :: cs =>
    if isDigit a && isDigit b then a :: ungroup (b :: cs) else a :: '_' :: ungroup (b :: cs)
  | c :: cs => c :: ungroup cs
  | [] => []

/-- The digits that a text starts with, and what follows them. -/
def digitRun (cs : List Char) : List Nat × List Char :=
  ((cs.takeWhile isDigit).filterMap digit?, cs.dropWhile isDigit)

/-- The natural number with the given decimal digits. -/
def ofDigits (ds : List Nat) : Nat :=
  ds.foldl (fun n d => 10 * n + d) 0

/-- Whether a text starts with a minus sign, and what follows its sign. -/
def signed : List Char → Bool × List Char
  | '-' :: cs => (true, cs)
  | '+' :: cs => (false, cs)
  | cs => (false, cs)

/-- The digits after a point, if the text starts with one, and what follows them. -/
def fraction : List Char → List Nat × List Char
  | '.' :: cs => digitRun cs
  | cs => ([], cs)

/-- The power of ten at the end of a numeral: the letter `e`, an optional sign and digits. A
numeral without one has the power zero. -/
def power? : List Char → Option Int
  | [] => some 0
  | c :: cs =>
    if c = 'e' ∨ c = 'E' then
      let (negative, cs) := signed cs
      match digitRun cs with
      | ([], _) => none
      | (_, _ :: _) => none
      | (ds, []) => some (if negative then -(ofDigits ds : Int) else ofDigits ds)
    else none

/-- The coefficient and the power of ten of an unsigned decimal number. -/
def magnitude? (cs : List Char) : Option (Nat × Int) :=
  let (whole, cs) := digitRun cs
  let (part, cs) := fraction cs
  if whole ++ part = [] then none
  else (power? cs).map fun k => (ofDigits (whole ++ part), k - part.length)

/-- The numeral that a text spells. -/
def parse? (s : String) : Option Numeral :=
  let (negative, cs) := signed (ungroup (trim s.toList))
  let word := String.ofList (cs.map Char.toLower)
  if word = "nan" then some nan
  else if word = "inf" ∨ word = "infinity" then some (infinite negative)
  else (magnitude? cs).map fun d => decimal negative d.1 d.2

/-- The value of a numeral, rounded to the nearest float. -/
def toFloat : Numeral → Float
  | nan => ⟨.pack .notANumber⟩
  | infinite negative => ⟨.pack (.infinity (if negative then .negative else .positive))⟩
  | decimal negative m k =>
    let x : Float := ⟨.ofScientific m k⟩
    if negative then -x else x

/-- The float that a text spells. -/
def read? (s : String) : Option Float :=
  (parse? s).map toFloat

/-! ### Digits alone -/

variable {c : Char} {cs : List Char}

theorem digit?_of_isDigit (h : c.isDigit) : digit? c = some (c.toNat - 48) := by
  obtain ⟨h0, h9⟩ := Char.isDigit_iff_toNat.mp h
  exact Text.digit?_zero_add ⟨h0, Nat.lt_succ_of_le h9⟩

theorem isBlank_of_isDigit (h : c.isDigit) : Text.isBlank c = false := by
  obtain ⟨h0, h9⟩ := Char.isDigit_iff_toNat.mp h
  have h0' : 48 ≤ c.toNat := h0
  have h9' : c.toNat ≤ 57 := h9
  simp [Text.isBlank, Text.blanks]
  omega

theorem toLower_of_isDigit (h : c.isDigit) : c.toLower = c := by
  obtain ⟨-, h9⟩ := Char.isDigit_iff_toNat.mp h
  refine dif_neg fun ⟨hA, _⟩ => ?_
  have hA' : 'A'.toNat ≤ c.toNat := UInt32.le_iff_toNat_le.mp hA
  have h9A : '9'.toNat < 'A'.toNat := by decide
  omega

theorem ungroup_eq_self (h : '_' ∉ cs) : ungroup cs = cs := by
  fun_induction ungroup cs with
  | case1 => simp at h
  | case2 => simp at h
  | case3 c cs _ ih => rw [ih fun hc => h (List.mem_cons_of_mem c hc)]
  | case4 => rfl

theorem signed_eq_self (h : ∀ c ∈ cs, c.isDigit) : signed cs = (false, cs) := by
  unfold signed
  split
  · exact absurd (h '-' List.mem_cons_self) (by decide)
  · exact absurd (h '+' List.mem_cons_self) (by decide)
  · rfl

theorem digitRun_eq_self (h : ∀ c ∈ cs, c.isDigit) :
    digitRun cs = (cs.map fun c => c.toNat - 48, []) := by
  induction cs with
  | nil => rfl
  | cons c cs ih =>
    rw [List.forall_mem_cons] at h
    have hd := digit?_of_isDigit h.1
    have hc : isDigit c := by simp [isDigit, hd]
    obtain ⟨h1, h2⟩ := Prod.mk.inj (ih h.2)
    rw [digitRun, List.takeWhile_cons_of_pos hc, List.dropWhile_cons_of_pos hc, h2,
      List.filterMap_cons_some hd, h1, List.map_cons]

theorem ofDigits_map (cs : List Char) :
    ofDigits (cs.map fun c => c.toNat - 48) = Nat.ofDigitChars 10 cs 0 := by
  rw [ofDigits, List.foldl_map]
  rfl

/-- Digits alone spell the number that they are the digits of. -/
theorem parse?_of_isDigit {s : String} (hne : s.toList ≠ []) (h : ∀ c ∈ s.toList, c.isDigit) :
    parse? s = some (decimal false (ofDigits (s.toList.map fun c => c.toNat - 48)) 0) := by
  have htrim : trim s.toList = s.toList := Text.trim_eq_self fun c hc => isBlank_of_isDigit (h c hc)
  have hungroup : ungroup s.toList = s.toList := by
    refine ungroup_eq_self fun hu => ?_
    exact absurd (h '_' hu) (by decide)
  have hword : s.toList.map Char.toLower = s.toList := by
    refine (List.map_congr_left fun c hc => toLower_of_isDigit (h c hc)).trans (List.map_id' _)
  -- the letters of the words are no digits
  have hletter : ∀ w : String, w.toList.all Char.isDigit = false → s ≠ w := by
    rintro w hw rfl
    rw [List.all_eq_true.mpr h] at hw
    cases hw
  have hnan := hletter "nan" (by decide)
  have hinf := hletter "inf" (by decide)
  have hinfinity := hletter "infinity" (by decide)
  simp only [parse?, htrim, hungroup, signed_eq_self h, hword, String.ofList_toList, hnan, hinf,
    hinfinity, or_self, if_false, magnitude?, digitRun_eq_self h, fraction]
  simp [power?, hne]

theorem isSome_read?_of_isDigit {s : String} (hne : s.toList ≠ [])
    (h : ∀ c ∈ s.toList, c.isDigit) : (read? s).isSome := by
  simp [read?, parse?_of_isDigit hne h]

end Numeral

end Bagay
