import Bagay.Decimal.Exact
import Mathlib.Data.Nat.Log
import Mathlib.Tactic.Ring

/-!
# The bits of a float

A float has 64 bits: its sign, eleven bits for its power of two and 52 bits for its factor. The
power with all bits set is kept for the infinities and for what is not a number. The least power is
kept for zero and for factors of at most 52 binary digits; at every other power the factor has one
more digit in front, which is not stored and always one.

* `Parts`: the five kinds of floats by their bits; `parts_unpack`, `Parts.unpack_eq`: unpacking
  reads off the kind.
* `Canonical`: which factors and powers of two there are.
* `pack_unpack`, `unpack_pack`: nothing is lost between a float and its parts.
* `ofFloat_injective`: a float is determined by what it stands for.
-/

namespace Bagay.Exact

open Float.Model Float.Model.UnpackedFloat

/-- The bits of a float. -/
abbrev Bits : Type := BitVec Format.binary64.numBits

namespace Bits

/-- The sign. -/
def sign (b : Bits) : Sign := .ofBitVec (unpackSign b)

/-- The stored power of two. -/
def power (b : Bits) : Nat := (unpackExponent b).toNat

/-- The stored part of the factor. -/
def factor (b : Bits) : Nat := (unpackMantissa b).toNat

variable {b b' : Bits}

theorem unpackSign_eq (b : Bits) : unpackSign b = b.extractLsb' 63 1 := rfl

theorem factor_eq (b : Bits) : b.factor = b.toNat % 2 ^ 52 := by
  simp [factor, unpackMantissa, BitVec.extractLsb_toNat]

theorem power_eq (b : Bits) : b.power = b.toNat / 2 ^ 52 % 2 ^ 11 := by
  simp [power, unpackExponent, BitVec.extractLsb_toNat, Nat.shiftRight_eq_div_pow]

theorem factor_lt (b : Bits) : b.factor < 2 ^ 52 := (unpackMantissa b).isLt

theorem power_lt (b : Bits) : b.power < 2 ^ 11 := (unpackExponent b).isLt

theorem toNat_eq_of_sign (h : b.sign = b'.sign) : b.toNat / 2 ^ 63 % 2 = b'.toNat / 2 ^ 63 % 2 := by
  have hinv : ∀ v : BitVec 1, (Sign.ofBitVec v).toBitVec = v := by decide
  have hbit : ∀ b : Bits, (unpackSign b).toNat = b.toNat / 2 ^ 63 % 2 := fun b => by
    rw [unpackSign_eq, BitVec.extractLsb'_toNat, Nat.shiftRight_eq_div_pow, Nat.pow_one]
  rw [← hbit, ← hbit, ← hinv (unpackSign b), ← hinv (unpackSign b')]
  exact congrArg (fun s : Sign => s.toBitVec.toNat) h

theorem ext_parts (hs : b.sign = b'.sign) (hp : b.power = b'.power) (hf : b.factor = b'.factor) :
    b = b' := by
  have hbit := toNat_eq_of_sign hs
  have hlt : b.toNat < 2 ^ 64 := b.isLt
  have hlt' : b'.toNat < 2 ^ 64 := b'.isLt
  rw [power_eq, power_eq] at hp
  rw [factor_eq, factor_eq] at hf
  exact BitVec.eq_of_toNat_eq (by omega)

/-- The bits with the given parts. -/
def ofParts (s : Sign) (p f : Nat) : Bits :=
  packComponents Format.binary64 s (BitVec.ofNat 11 p) (BitVec.ofNat 52 f)

theorem sign_ofParts (s : Sign) (p f : Nat) : (ofParts s p f).sign = s := by
  unfold sign ofParts packComponents
  rw [unpackSign_eq, BitVec.extractLsb'_append_eq_of_le (by decide),
    BitVec.extractLsb'_append_eq_of_le (by decide)]
  cases s <;> rfl

theorem power_ofParts (s : Sign) (p f : Nat) : (ofParts s p f).power = p % 2 ^ 11 := by
  unfold power ofParts
  rw [unpackExponent_packComponents, BitVec.toNat_ofNat]

theorem factor_ofParts (s : Sign) (p f : Nat) : (ofParts s p f).factor = f % 2 ^ 52 := by
  unfold factor ofParts
  rw [unpackMantissa_packComponents, BitVec.toNat_ofNat]

theorem ofParts_eq {p f : Nat} (hp : b.power = p % 2 ^ 11) (hf : b.factor = f % 2 ^ 52) :
    ofParts b.sign p f = b :=
  ext_parts (sign_ofParts ..) ((power_ofParts ..).trans hp.symm) ((factor_ofParts ..).trans hf.symm)

end Bits

/-! ### The five kinds of floats -/

variable {b : Bits} {s : Sign} {m : Nat} {e : Int} {hm : 0 < m}

/-- What the bits of a float are unpacked to. -/
inductive Parts (b : Bits) : UnpackedFloat → Prop
  | nan (hp : b.power = 2047) (hf : b.factor ≠ 0) : Parts b .notANumber
  | infinite (hp : b.power = 2047) (hf : b.factor = 0) : Parts b (.infinity b.sign)
  | zero (hp : b.power = 0) (hf : b.factor = 0) : Parts b (.zero b.sign)
  | small {m : Nat} {e : Int} {hm : 0 < m} (hp : b.power = 0) (hf : b.factor = m)
      (he : e = -1074) : Parts b (.finite b.sign m e hm)
  | full {m : Nat} {e : Int} {hm : 0 < m} (h0 : b.power ≠ 0) (h1 : b.power ≠ 2047)
      (hf : m = 2 ^ 52 + b.factor) (hp : e = b.power - 1075) : Parts b (.finite b.sign m e hm)

theorem toNat_one_append (v : BitVec 52) : (1#1 ++ v).toNat = 2 ^ 52 + v.toNat := by
  rw [BitVec.toNat_append, ← Nat.shiftLeft_add_eq_or_of_lt v.isLt]
  rfl

theorem parts_unpack (b : Bits) : Parts b (UnpackedFloat.unpack Format.binary64 b) := by
  have hfactor : unpackMantissa b = 0#52 ↔ b.factor = 0 := BitVec.toNat_inj.symm
  have hnone : unpackExponent b = 0#11 ↔ b.power = 0 := BitVec.toNat_inj.symm
  have hall : unpackExponent b = -1#11 ↔ b.power = 2047 := BitVec.toNat_inj.symm
  unfold UnpackedFloat.unpack
  dsimp only
  by_cases h1 : unpackExponent b = -1#11
  · rw [if_pos h1]
    by_cases hm : unpackMantissa b = 0#52
    · rw [if_pos hm]
      exact .infinite (hall.mp h1) (hfactor.mp hm)
    · rw [if_neg hm]
      exact .nan (hall.mp h1) (hfactor.not.mp hm)
  rw [if_neg h1]
  by_cases h0 : unpackExponent b = 0#11
  · rw [if_pos h0]
    by_cases hm : unpackMantissa b = 0#52
    · rw [dif_pos hm]
      exact .zero (hnone.mp h0) (hfactor.mp hm)
    · have hpower : ((unpackExponent b).toNat : Int) - ((Format.binary64.exponentBias : Int) +
          Format.binary64.mantissaBitsWithoutImplicit) + 1 = -1074 := by
        rw [h0]
        rfl
      rw [dif_neg hm]
      exact .small (hnone.mp h0) rfl hpower
  · rw [if_neg h0]
    exact .full (hnone.not.mp h0) (hall.not.mp h1) (toNat_one_append _) rfl

/-- Bits are of one kind only. -/
theorem Parts.unique {u v : UnpackedFloat} (hu : Parts b u) (hv : Parts b v) : u = v := by
  have hlt := b.factor_lt
  cases hu <;> cases hv <;> first | omega | (subst_vars; rfl)

theorem Parts.unpack_eq {u : UnpackedFloat} (h : Parts b u) :
    UnpackedFloat.unpack Format.binary64 b = u :=
  (parts_unpack b).unique h

/-- The factors and powers of two of the floats other than zero: the factor has 53 binary digits, or
fewer at the least power. -/
structure Canonical (m : Nat) (e : Int) : Prop where
  lt : m < 2 ^ 53
  le_power : -1074 ≤ e
  power_le : e ≤ 971
  full : 2 ^ 52 ≤ m ∨ e = -1074

theorem Parts.canonical (h : Parts b (.finite s m e hm)) : Canonical m e := by
  have hfactor := b.factor_lt
  have hpower := b.power_lt
  cases h with
  | small hp hf he => exact ⟨by omega, by omega, by omega, .inr he⟩
  | full h0 h1 hf hp => exact ⟨by omega, by omega, by omega, .inl (by omega)⟩

theorem canonical_of_unpack {x : Float.Model} (h : x.unpack = .finite s m e hm) :
    Canonical m e := by
  have hparts : Parts x.toBits.toBitVec x.unpack := parts_unpack _
  rw [h] at hparts
  exact hparts.canonical

/-! ### Packing -/

theorem pack_full (hle : 2 ^ 52 ≤ m) (h : Canonical m e) :
    UnpackedFloat.pack Format.binary64 (.finite s m e hm) = Bits.ofParts s (e + 1075).toNat m := by
  obtain ⟨hlt, hlo, hhi, -⟩ := h
  have hlog : m.log2 = 52 := (Nat.log2_eq_iff hm.ne').mpr ⟨hle, hlt⟩
  have hbias : e + (Format.binary64.exponentBias : Int) +
      (Format.binary64.mantissaBitsWithoutImplicit : Int) = e + 1075 := by
    rw [add_assoc]
    rfl
  have hpower : ¬ 2 ^ 11 ≤ (e + 1075).toNat + 1 := by omega
  unfold UnpackedFloat.pack
  dsimp only
  rw [hbias, if_neg hpower, if_pos (by rw [hlog]; rfl)]
  rfl

theorem pack_small (hlt : m < 2 ^ 52) :
    UnpackedFloat.pack Format.binary64 (.finite s m (-1074) hm) = Bits.ofParts s 0 m := by
  have hlog : m.log2 < 52 := (Nat.log2_lt hm.ne').mpr hlt
  have hdigits : ¬ m.log2 + 1 = Format.binary64.mantissaBits := by
    have : Format.binary64.mantissaBits = 53 := rfl
    omega
  unfold UnpackedFloat.pack
  dsimp only
  rw [if_neg (by decide), if_neg hdigits]
  rfl

theorem Parts.pack_eq {u : UnpackedFloat} (h : Parts b u) (hvalid : Format.binary64.Valid b) :
    UnpackedFloat.pack Format.binary64 u = b := by
  have hfactor := b.factor_lt
  have hpower := b.power_lt
  cases h with
  | nan hp hf =>
    refine (hvalid.eq_packedNaN (BitVec.eq_of_toNat_eq hp) fun h0 => hf ?_).symm
    exact congrArg BitVec.toNat h0
  | infinite hp hf => exact Bits.ofParts_eq (p := 2047) (f := 0) hp hf
  | zero hp hf => exact Bits.ofParts_eq (p := 0) (f := 0) hp hf
  | small hp hf he =>
    subst he
    rw [pack_small (by omega)]
    refine Bits.ofParts_eq hp ?_
    omega
  | @full m e hm h0 h1 hf hp =>
    have hparts : Parts b (.finite b.sign m e hm) := .full h0 h1 hf hp
    rw [pack_full (by omega) hparts.canonical]
    refine Bits.ofParts_eq ?_ ?_
    · omega
    · omega

theorem eq_of_toBits_eq {x y : Float.Model} (h : x.toBits.toBitVec = y.toBits.toBitVec) :
    x = y := by
  obtain ⟨⟨bits⟩, hx⟩ := x
  obtain ⟨⟨bits'⟩, hy⟩ := y
  obtain rfl : bits = bits' := h
  rfl

/-- **Unpacking** loses nothing. -/
theorem pack_unpack (x : Float.Model) : Float.Model.pack x.unpack = x :=
  eq_of_toBits_eq ((parts_unpack x.toBits.toBitVec).pack_eq x.valid)

/-- **Packing** loses nothing of a factor and a power of two that a float can have. -/
theorem unpack_pack (hm : 0 < m) (h : Canonical m e) (s : Sign) :
    (Float.Model.pack (.finite s m e hm)).unpack = .finite s m e hm := by
  have hparts : Parts (UnpackedFloat.pack Format.binary64 (.finite s m e hm))
      (.finite s m e hm) := by
    have hlt := h.lt
    have hlo := h.le_power
    have hhi := h.power_le
    by_cases hle : 2 ^ 52 ≤ m
    · rw [pack_full hle h]
      have hp := Bits.power_ofParts s (e + 1075).toNat m
      have hf := Bits.factor_ofParts s (e + 1075).toNat m
      have hs := Bits.sign_ofParts s (e + 1075).toNat m
      generalize Bits.ofParts s (e + 1075).toNat m = b at hp hf hs ⊢
      subst hs
      refine .full ?_ ?_ ?_ ?_
      · omega
      · omega
      · omega
      · omega
    · obtain rfl : e = -1074 := h.full.resolve_left hle
      rw [pack_small (by omega)]
      have hp := Bits.power_ofParts s 0 m
      have hf := Bits.factor_ofParts s 0 m
      have hs := Bits.sign_ofParts s 0 m
      generalize Bits.ofParts s 0 m = b at hp hf hs ⊢
      subst hs
      exact .small (by omega) (by omega) rfl
  exact hparts.unpack_eq

/-- **Floats** are determined by what they stand for. -/
theorem ofFloat_injective : Function.Injective ofFloat := by
  intro x y h
  have hsign : ∀ s t : Sign, isNegative s = isNegative t → s = t := by
    intro s t
    cases s <;> cases t <;> simp [isNegative]
  have hunpack : x.toModel.unpack = y.toModel.unpack := by
    unfold ofFloat at h
    rcases hx : x.toModel.unpack with s | _ | s | ⟨s, m, e, hm⟩ <;>
      rcases hy : y.toModel.unpack with t | _ | t | ⟨t, n, f, hn⟩ <;>
      rw [hx, hy] at h <;>
      simp only [Exact.infinite.injEq, Exact.finite.injEq, reduceCtorEq] at h
    · rw [hsign _ _ h]
    · rw [hsign _ _ h.1]
    · omega
    · omega
    · obtain ⟨h, rfl, rfl⟩ := h
      rw [hsign _ _ h]
  have hmodel : x.toModel = y.toModel := by
    rw [← pack_unpack x.toModel, hunpack, pack_unpack]
  cases x
  cases y
  exact congrArg _ hmodel

end Bagay.Exact
