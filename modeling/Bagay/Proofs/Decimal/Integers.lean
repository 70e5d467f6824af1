import Bagay.Decimal.Numeral
import Bagay.Proofs.Decimal.Packing
import Mathlib.Algebra.Order.Field.Power
import Mathlib.Data.Rat.Cast.Order
import Mathlib.Tactic.Linarith

/-!
# Integers among the floats

Every integer up to `2 ^ 53` is a float, and so nothing is rounded as long as a computation does not
leave these integers: sums, differences and numbers that are read have their exact values.

A number `m · 2 ^ e` is rounded in two steps. It is brought to the power of two at which its factor
has 53 binary digits, and the digits behind these are rounded away. If the number is equal to
`M · 2 ^ t` with such a factor `M`, the first step ends at `M` and `t` and all digits behind are
zero, whatever `m` and `e` were.

* `rational?`: the rational number that a float is equal to.
* `round_eq`: rounding keeps what a float can hold.
* `rational?_normalize`: it keeps the integers up to `2 ^ 53`.
* `IsInteger.add`, `IsInteger.sub`, `exists_read?`: sums, differences and digits.
-/

namespace Bagay.Exact

open Float.Model Float.Model.UnpackedFloat

variable {u v : UnpackedFloat} {s : Sign} {m M : Nat} {e t : Int}

/-- The rational number that an unpacked float is equal to, if there is one. -/
def rational? : UnpackedFloat → Option ℚ
  | .zero _ => some 0
  | .finite s m e _ => some ((s.apply m : Int) * 2 ^ e)
  | _ => none

/-! ### Scaled numbers -/

theorem log2_mul_pow (hm : 0 < m) (k : Nat) : (m * 2 ^ k).log2 = m.log2 + k := by
  have hpos : 0 < 2 ^ k := Nat.two_pow_pos k
  refine (Nat.log2_eq_iff (Nat.mul_ne_zero hm.ne' hpos.ne')).mpr ⟨?_, ?_⟩
  · rw [Nat.pow_add]
    exact Nat.mul_le_mul_right _ (Nat.log2_self_le hm.ne')
  · rw [Nat.add_right_comm, Nat.pow_add]
    exact Nat.mul_lt_mul_of_pos_right Nat.lt_log2_self hpos

theorem mul_zpow_injective {a b : ℚ} (h : a * 2 ^ e = b * 2 ^ e) : a = b :=
  mul_right_cancel₀ (zpow_ne_zero e two_ne_zero) h

theorem shift_mul_zpow (q : ℚ) (k : Nat) (e : Int) : q * 2 ^ k * 2 ^ (e - k) = q * 2 ^ e := by
  rw [mul_assoc, ← zpow_natCast, ← zpow_add₀ two_ne_zero, add_sub_cancel]

/-- Two numbers are equal if their factors are, once these are brought to one power of two. -/
theorem mul_pow_eq_mul_pow (h : (m : ℚ) * 2 ^ e = M * 2 ^ t) :
    m * 2 ^ (e - t).toNat = M * 2 ^ (t - e).toNat := by
  have hpower : e - (e - t).toNat = t - (t - e).toNat := by omega
  have hcast : ((m : ℚ) * 2 ^ (e - t).toNat) = M * 2 ^ (t - e).toNat := by
    refine mul_zpow_injective (e := e - (e - t).toNat) ?_
    rw [shift_mul_zpow, hpower, shift_mul_zpow, h]
  exact_mod_cast hcast

/-! ### Rounding -/

/-- Zeros behind the digits kept leave nothing to round. -/
theorem shiftRight_exact (M j : Nat) :
    (⟨M * 2 ^ j, false, false⟩ : ExtendedMantissa) >>> j = ⟨M, false, false⟩ := by
  show Nat.repeat ExtendedMantissa.shiftRightOne j _ = _
  induction j generalizing M with
  | zero => simp [Nat.repeat]
  | succ j ih =>
    have hfactor : M * 2 ^ (j + 1) = 2 * M * 2 ^ j := by ring
    rw [Nat.repeat, hfactor, ih]
    simp [ExtendedMantissa.shiftRightOne]

theorem shiftToTargetExponent_exact (hle : 2 ^ 52 ≤ M) (hlt : M < 2 ^ 53) (j : Nat)
    (he : -1074 ≤ e + j) : shiftToTargetExponent Format.binary64 (M * 2 ^ j) e .exact =
      (⟨M, false, false⟩, e + j) := by
  have hlog : (M * 2 ^ j).log2 = 52 + j := by
    rw [log2_mul_pow (by omega), (Nat.log2_eq_iff (by omega)).mpr ⟨hle, hlt⟩]
  have htarget : Format.binary64.targetExponent (totalExponent (M * 2 ^ j) e) = e + j := by
    have hdigits : (Format.binary64.mantissaBits : Int) = 53 := rfl
    have hleast : Format.binary64.minExponent = -1074 := rfl
    unfold Format.targetExponent totalExponent
    rw [hlog, hdigits, hleast]
    omega
  have hshift : (e + j - e).toNat = j := by omega
  unfold shiftToTargetExponent
  simp only [htarget, shiftToExponent, hshift, ExtendedMantissa.ofMantissaAndAccuracy]
  rw [shiftRight_exact]

theorem roundWithAccuracy_eq (hM : 0 < M) (hle : 2 ^ 52 ≤ M) (hlt : M < 2 ^ 53) (j : Nat)
    (he : -1074 ≤ e + j) (s : Sign) :
    roundWithAccuracy Format.binary64 s (M * 2 ^ j) e .exact = .finite s M (e + j) hM := by
  have hfirst := shiftToTargetExponent_exact hle hlt j he
  have hsecond := shiftToTargetExponent_exact (e := e + j) hle hlt 0 (by omega)
  rw [Nat.pow_zero, Nat.mul_one, Nat.cast_zero, add_zero] at hsecond
  have hround : (⟨M, false, false⟩ : ExtendedMantissa).roundedMantissa = M := rfl
  unfold roundWithAccuracy
  rw [hfirst]
  dsimp only
  rw [hround, hsecond]
  dsimp only
  rw [dif_neg hM.ne']

/-- **Rounding** keeps a number that has a factor of 53 digits. -/
theorem round_eq (hM : 0 < M) (hle : 2 ^ 52 ≤ M) (hlt : M < 2 ^ 53) (ht : -1074 ≤ t) (hm : 0 < m)
    (h : (m : ℚ) * 2 ^ e = M * 2 ^ t) (s : Sign) :
    UnpackedFloat.round Format.binary64 s m e = .finite s M t hM := by
  have hfactor := mul_pow_eq_mul_pow h
  have hlog : m.log2 + (e - t).toNat = 52 + (t - e).toNat := by
    rw [← log2_mul_pow hm, hfactor, log2_mul_pow hM, (Nat.log2_eq_iff hM.ne').mpr ⟨hle, hlt⟩]
  have htarget : Format.binary64.targetExponent (totalExponent m e) = t := by
    have hdigits : (Format.binary64.mantissaBits : Int) = 53 := rfl
    have hleast : Format.binary64.minExponent = -1074 := rfl
    unfold Format.targetExponent totalExponent
    rw [hdigits, hleast]
    omega
  have hpower : e - (e - t).toNat + (t - e).toNat = t := by omega
  unfold UnpackedFloat.round decreaseExponent
  dsimp only
  rw [htarget, Nat.shiftLeft_eq, hfactor, roundWithAccuracy_eq hM hle hlt _ (by omega) s]
  exact congrArg (UnpackedFloat.finite s M · hM) hpower

/-! ### Integers -/

theorem exists_factor {k : Nat} (hk : 0 < k) (hle : k ≤ 2 ^ 53) :
    ∃ M j : Nat, 2 ^ 52 ≤ M ∧ M < 2 ^ 53 ∧ j ≤ 54 ∧ k * 2 ^ 53 = M * 2 ^ j := by
  rcases hle.lt_or_eq with hlt | rfl
  · have hlog : k.log2 < 53 := (Nat.log2_lt hk.ne').mpr hlt
    have hdigits : (k * 2 ^ (52 - k.log2)).log2 = 52 := by
      rw [log2_mul_pow hk]
      omega
    have hpos : k * 2 ^ (52 - k.log2) ≠ 0 := Nat.mul_ne_zero hk.ne' (Nat.two_pow_pos _).ne'
    obtain ⟨hlo, hhi⟩ := (Nat.log2_eq_iff hpos).mp hdigits
    refine ⟨k * 2 ^ (52 - k.log2), k.log2 + 1, hlo, hhi, by omega, ?_⟩
    rw [mul_assoc, ← Nat.pow_add]
    congr 2
    omega
  · exact ⟨2 ^ 52, 54, by norm_num, by norm_num, le_rfl, by norm_num⟩

theorem rational?_unpack_pack (hM : 0 < M) (h : Canonical M t) (s : Sign) :
    rational? (Float.Model.pack (.finite s M t hM)).unpack =
      some (((s.apply M : Int) : ℚ) * 2 ^ t) := by
  rw [unpack_pack hM h]
  rfl

theorem eq_mul_zpow_of_factor {k j : Nat} (h : k * 2 ^ 53 = M * 2 ^ j) :
    (k : ℚ) = M * 2 ^ ((j : Int) - 53) := by
  have hcast : (k : ℚ) * 2 ^ 53 = M * 2 ^ j := by exact_mod_cast h
  have hpower : ((2 : ℚ) ^ (53 : Nat)) * 2 ^ ((j : Int) - 53) = 2 ^ j := by
    rw [← zpow_natCast, ← zpow_natCast, ← zpow_add₀ two_ne_zero]
    congr 1
    push_cast
    ring
  refine mul_right_cancel₀ (pow_ne_zero 53 two_ne_zero : (2 : ℚ) ^ 53 ≠ 0) ?_
  rw [hcast, mul_assoc, mul_comm ((2 : ℚ) ^ ((j : Int) - 53)), hpower]

theorem apply_natCast (s : Sign) (q : ℚ) {k : Nat} (h : (k : ℚ) = M * q) :
    ((s.apply M : Int) : ℚ) * q = (s.apply k : Int) := by
  cases s with
  | positive => simpa [Sign.apply] using h.symm
  | negative => simp [Sign.apply, h]

theorem rational?_round {k : Nat} (hk : 0 < k) (hle : k ≤ 2 ^ 53) (hm : 0 < m)
    (h : (m : ℚ) * 2 ^ e = k) (s : Sign) :
    rational? (Float.Model.pack (UnpackedFloat.round Format.binary64 s m e)).unpack =
      some ((s.apply k : Int) : ℚ) := by
  obtain ⟨M, j, hlo, hhi, hj, hfactor⟩ := exists_factor hk hle
  have hM : 0 < M := by omega
  have hvalue := eq_mul_zpow_of_factor hfactor
  rw [round_eq hM hlo hhi (by omega) hm (h.trans hvalue),
    rational?_unpack_pack hM ⟨hhi, by omega, by omega, .inl hlo⟩, apply_natCast s _ hvalue]

theorem unpack_pack_zero (s : Sign) : (Float.Model.pack (.zero s)).unpack = .zero s := by
  cases s <;> rfl

/-- **Integers** up to `2 ^ 53` are kept, whatever their factor and power of two. -/
theorem rational?_normalize {n m : Int} (hle : n.natAbs ≤ 2 ^ 53) (h : (m : ℚ) * 2 ^ e = n)
    (z : Sign) :
    rational? (Float.Model.pack (UnpackedFloat.normalize Format.binary64 m e z)).unpack =
      some (n : ℚ) := by
  have hpos : (0 : ℚ) < 2 ^ e := zpow_pos two_pos e
  rcases lt_trichotomy m 0 with hneg | rfl | hgt
  · have hn : n < 0 := by
      have : (n : ℚ) < 0 := h ▸ mul_neg_of_neg_of_pos (by exact_mod_cast hneg) hpos
      exact_mod_cast this
    have hm' : (((-m).toNat : Nat) : ℚ) = -m := by exact_mod_cast Int.toNat_of_nonneg (by omega)
    have hn' : (((-n).toNat : Nat) : ℚ) = -n := by exact_mod_cast Int.toNat_of_nonneg (by omega)
    have hcompare : compare m 0 = .lt := Int.compare_eq_lt.mpr hneg
    unfold UnpackedFloat.normalize
    rw [hcompare]
    simp only
    rw [rational?_round (k := (-n).toNat) (by omega) (by omega) (by omega)
      (by rw [hm', hn', neg_mul, h])]
    have happly : Sign.apply .negative ((-n).toNat : Int) = n := by
      simp only [Sign.apply]
      omega
    rw [happly]
  · have hn : (n : ℚ) = 0 := by rw [← h, Int.cast_zero, zero_mul]
    have hcompare : compare (0 : Int) 0 = .eq := by decide
    unfold UnpackedFloat.normalize
    rw [hcompare, hn]
    simp only [unpack_pack_zero]
    rfl
  · have hn : 0 < n := by
      have : (0 : ℚ) < n := h ▸ mul_pos (by exact_mod_cast hgt) hpos
      exact_mod_cast this
    have hm' : ((m.toNat : Nat) : ℚ) = m := by exact_mod_cast Int.toNat_of_nonneg (by omega)
    have hn' : ((n.toNat : Nat) : ℚ) = n := by exact_mod_cast Int.toNat_of_nonneg (by omega)
    have hcompare : compare m 0 = .gt := Int.compare_eq_gt.mpr hgt
    unfold UnpackedFloat.normalize
    rw [hcompare]
    simp only
    rw [rational?_round (k := n.toNat) (by omega) (by omega) (by omega) (by rw [hm', hn', h])]
    have happly : Sign.apply .positive (n.toNat : Int) = n := by
      simp only [Sign.apply]
      omega
    rw [happly]

/-! ### Sums and differences -/

/-- An unpacked float that can be packed without a loss. -/
def IsStored (u : UnpackedFloat) : Prop := (Float.Model.pack u).unpack = u

theorem isStored_unpack (x : Float.Model) : IsStored x.unpack := by
  rw [IsStored, pack_unpack]

theorem IsStored.neg (h : IsStored u) : IsStored u.neg := by
  rcases u with s | _ | s | ⟨s, m, e, hm⟩
  · cases s <;> rfl
  · rfl
  · exact unpack_pack_zero (-s)
  · exact unpack_pack hm (canonical_of_unpack h) (-s)

theorem apply_neg (s : Sign) (n : Int) : (-s).apply n = -s.apply n := by
  cases s
  · exact (Int.neg_neg n).symm
  · rfl

theorem rational?_neg {q : ℚ} (h : rational? u = some q) : rational? u.neg = some (-q) := by
  rcases u with s | _ | s | ⟨s, m, e, hm⟩
  · cases h
  · cases h
  · cases h
    exact congrArg some neg_zero.symm
  · cases h
    show some ((((-s).apply m : Int) : ℚ) * 2 ^ e) = some (-(((s.apply m : Int) : ℚ) * 2 ^ e))
    rw [apply_neg, Int.cast_neg, neg_mul]

theorem sub_eq_add_neg (u v : UnpackedFloat) :
    UnpackedFloat.sub Format.binary64 u v = UnpackedFloat.add Format.binary64 u v.neg := by
  rcases u with s | _ | s | ⟨s, m, e, hm⟩ <;> rcases v with t | _ | t | ⟨t, n, f, hn⟩ <;> try rfl
  unfold UnpackedFloat.sub UnpackedFloat.add UnpackedFloat.neg
  dsimp only
  rw [apply_neg, Int.sub_eq_add_neg]

theorem apply_shift (s : Sign) (m : Nat) (he : t ≤ e) :
    ((s.apply (m <<< (e - t).toNat : Nat) : Int) : ℚ) * 2 ^ t = (s.apply m : Int) * 2 ^ e := by
  have hpower : e - (e - t).toNat = t := by omega
  have hshift : ((s.apply (m <<< (e - t).toNat : Nat) : Int) : ℚ) =
      (s.apply m : Int) * 2 ^ (e - t).toNat := by
    rw [Nat.shiftLeft_eq]
    cases s <;> simp [Sign.apply]
  rw [hshift, ← shift_mul_zpow _ (e - t).toNat e, hpower]

theorem rational?_add {a b : Int} (hu : IsStored u) (hv : IsStored v)
    (ha : rational? u = some (a : ℚ)) (hb : rational? v = some (b : ℚ))
    (hle : (a + b).natAbs ≤ 2 ^ 53) :
    rational? (Float.Model.pack (UnpackedFloat.add Format.binary64 u v)).unpack =
      some ((a + b : Int) : ℚ) := by
  have hzero : ∀ {s : Sign} {n : Int}, rational? (.zero s) = some (n : ℚ) → n = 0 := by
    intro s n h
    exact_mod_cast (Option.some.inj h).symm
  rcases u with s | _ | s | ⟨s, m, e, hm⟩
  · cases ha
  · cases ha
  · obtain rfl := hzero ha
    rcases v with t | _ | t | ⟨t, n, f, hn⟩
    · cases hb
    · cases hb
    · obtain rfl := hzero hb
      cases s <;> cases t <;> rfl
    · rw [zero_add, ← hb]
      exact congrArg rational? hv
  · rcases v with t | _ | t | ⟨t, n, f, hn⟩
    · cases hb
    · cases hb
    · obtain rfl := hzero hb
      rw [add_zero, ← ha]
      exact congrArg rational? hu
    · have ha' : ((s.apply m : Int) : ℚ) * 2 ^ e = a := Option.some.inj ha
      have hb' : ((t.apply n : Int) : ℚ) * 2 ^ f = b := Option.some.inj hb
      refine rational?_normalize hle ?_ .positive
      rw [Int.cast_add, add_mul, apply_shift s m (min_le_left e f),
        apply_shift t n (min_le_right e f), ha', hb', Int.cast_add]

/-! ### Integer floats -/

variable {x y : Float} {a b n : Int} {k : Nat}

theorem natural?_eq_some_iff : natural? m e = some k ↔ (m : ℚ) * 2 ^ e = k := by
  cases e with
  | ofNat j =>
    have hcast : (m : ℚ) * 2 ^ (Int.ofNat j) = (m * 2 ^ j : Nat) := by
      rw [Int.ofNat_eq_natCast, zpow_natCast]
      push_cast
      rfl
    rw [hcast, Nat.cast_inj, natural?, Option.some_inj, Nat.pow_eq]
  | negSucc j =>
    have hcast : (m : ℚ) * 2 ^ (Int.negSucc j) = k ↔ m = k * 2 ^ (j + 1) := by
      rw [zpow_negSucc, mul_inv_eq_iff_eq_mul₀ (pow_ne_zero _ two_ne_zero)]
      norm_cast
    rw [hcast, natural?, Nat.pow_eq, Option.ite_none_right_eq_some, Option.some_inj]
    constructor
    · rintro ⟨hdvd, rfl⟩
      exact (Nat.div_mul_cancel hdvd).symm
    · rintro rfl
      exact ⟨Nat.dvd_mul_left .., Nat.mul_div_cancel _ (Nat.two_pow_pos _)⟩

theorem integer?_finite_eq_some_iff {negative : Bool} :
    (finite negative m e).integer? = some n ↔
      ∃ k : Nat, natural? m e = some k ∧ (if negative then -(k : Int) else k) = n := by
  cases hk : natural? m e <;> simp [integer?, hk]

/-- The float `x` is equal to the integer `n`. -/
def IsInteger (x : Float) (n : Int) : Prop := (ofFloat x).integer? = some n

theorem isInteger_iff : IsInteger x n ↔ rational? x.toModel.unpack = some (n : ℚ) := by
  unfold IsInteger ofFloat
  rcases x.toModel.unpack with s | _ | s | ⟨s, m, e, hm⟩
  · exact ⟨nofun, nofun⟩
  · exact ⟨nofun, nofun⟩
  · show (finite (isNegative s) 0 0).integer? = some n ↔ some (0 : ℚ) = some (n : ℚ)
    cases s <;> simp [integer?, natural?, isNegative, eq_comm]
  · have hpos : (0 : ℚ) ≤ m * 2 ^ e := by positivity
    show (finite (isNegative s) m e).integer? = some n ↔
      some (((s.apply m : Int) : ℚ) * 2 ^ e) = some (n : ℚ)
    simp only [integer?_finite_eq_some_iff, natural?_eq_some_iff, Option.some_inj]
    cases s with
    | positive =>
      simp only [isNegative, Sign.apply, Int.cast_natCast, Bool.false_eq_true, if_false]
      constructor
      · rintro ⟨k, hk, rfl⟩
        exact_mod_cast hk
      · intro h
        have hn : 0 ≤ n := by exact_mod_cast h ▸ hpos
        obtain ⟨k, rfl⟩ := Int.eq_ofNat_of_zero_le hn
        exact ⟨k, by exact_mod_cast h, rfl⟩
    | negative =>
      simp only [isNegative, Sign.apply, Int.cast_neg, Int.cast_natCast, if_true, neg_mul]
      constructor
      · rintro ⟨k, hk, rfl⟩
        rw [hk]
        norm_cast
      · intro h
        have hn : 0 ≤ -n := by exact_mod_cast (neg_eq_iff_eq_neg.mp h) ▸ hpos
        obtain ⟨k, hk⟩ := Int.eq_ofNat_of_zero_le hn
        refine ⟨k, ?_, by omega⟩
        rw [neg_eq_iff_eq_neg.mp h]
        exact_mod_cast hk

/-- **Sums** of integers are exact. -/
theorem IsInteger.add (hx : IsInteger x a) (hy : IsInteger y b) (hle : (a + b).natAbs ≤ 2 ^ 53) :
    IsInteger (x + y) (a + b) := by
  rw [isInteger_iff] at hx hy ⊢
  exact rational?_add (isStored_unpack _) (isStored_unpack _) hx hy hle

/-- **Differences** of integers are exact. -/
theorem IsInteger.sub (hx : IsInteger x a) (hy : IsInteger y b) (hle : (a - b).natAbs ≤ 2 ^ 53) :
    IsInteger (x - y) (a - b) := by
  rw [isInteger_iff] at hx hy ⊢
  have hneg : rational? y.toModel.unpack.neg = some ((-b : Int) : ℚ) := by
    rw [rational?_neg hy, Int.cast_neg]
  have hsub := rational?_add (isStored_unpack _) (isStored_unpack _).neg hx hneg hle
  rwa [← sub_eq_add_neg] at hsub

theorem isInteger_ofScientific (hle : k ≤ 2 ^ 53) : IsInteger ⟨.ofScientific k 0⟩ k := by
  rw [isInteger_iff]
  show rational? (Float.Model.pack (UnpackedFloat.ofScientific Format.binary64 k 0)).unpack = _
  unfold UnpackedFloat.ofScientific
  by_cases hk : k = 0
  · rw [dif_pos hk, unpack_pack_zero, hk]
    rfl
  · obtain ⟨M, j, hlo, hhi, hj, hfactor⟩ := exists_factor (Nat.pos_of_ne_zero hk) hle
    have hM : 0 < M := by omega
    have hdigits : Format.binary64.mantissaBits = 53 := rfl
    have hsmall : ¬ (0 : Int) < -(2 ^ Format.binary64.exponentBits + (k.log2 : Int)) := by
      have : (0 : Int) < 2 ^ Format.binary64.exponentBits := by decide
      omega
    rw [dif_neg hk, if_neg (by decide), if_neg hsmall, if_pos le_rfl]
    unfold UnpackedFloat.mul
    dsimp only
    rw [hdigits, Nat.shiftLeft_eq, hfactor, Int.toNat_zero, Nat.pow_zero, Nat.mul_one, add_zero,
      roundWithAccuracy_eq hM hlo hhi j (by omega)]
    rw [rational?_unpack_pack hM ⟨hhi, by omega, by omega, .inl hlo⟩]
    have hvalue := eq_mul_zpow_of_factor hfactor
    rw [neg_add_eq_sub]
    exact congrArg some (apply_natCast .positive _ hvalue)

/-- **Digits** are read as the number that they are the digits of. -/
theorem exists_read? {s : String} (hne : s.toList ≠ []) (h : ∀ c ∈ s.toList, c.isDigit)
    (hle : Nat.ofDigitChars 10 s.toList 0 ≤ 2 ^ 53) :
    ∃ x, Numeral.read? s = some x ∧ IsInteger x (Nat.ofDigitChars 10 s.toList 0) := by
  refine ⟨_, ?_, isInteger_ofScientific hle⟩
  rw [Numeral.read?, Numeral.parse?_of_isDigit hne h, Numeral.ofDigits_map]
  rfl

end Bagay.Exact
