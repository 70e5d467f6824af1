import Bagay.Decimal.Shortest
import Bagay.Proofs.Decimal.Packing
import Mathlib.Algebra.Order.Field.Power
import Mathlib.Data.Rat.Cast.Order
import Mathlib.Tactic.Linarith
import Mathlib.Tactic.NormNum

/-!
# Rounding intervals

A number rounds to the float `m · 2 ^ e` if it lies between the midpoints to the neighbours of the
float, or on a midpoint if `m` is even. No number rounds to two floats: at one power of two the
upper midpoint of a factor is the lower one of the next factor, and one of these two is odd; and at
a higher power of two all intervals lie above those of the lower powers, which they meet at most in
the upper midpoint of the largest factor, an odd one.

* `RoundsTo`: the interval of a float.
* `roundsTo_shortest`: the shortest decimal of a float lies in its interval.
* `RoundsTo.not_power_lt`, `RoundsTo.not_factor_lt`: intervals of distinct floats are disjoint.
* `RoundsTo.unique`: so a number rounds to one float only.
-/

namespace Bagay.Decimal

open Exact (Canonical)

variable {m n d : Nat} {e f k : Int} {q : ℚ}

/-- The number that a decimal is. -/
def value (d : Decimal) : ℚ := d.coefficient * 10 ^ d.exponent

/-- The number rounds to `m · 2 ^ e`: it lies between the midpoints, and on one of them only if the
factor is even. -/
structure RoundsTo (q : ℚ) (m : Nat) (e : Int) : Prop where
  low_le : low m e * 2 ^ (e - 2) ≤ q
  le_high : q ≤ high m * 2 ^ (e - 2)
  low_lt : m % 2 = 1 → low m e * 2 ^ (e - 2) < q
  lt_high : m % 2 = 1 → q < high m * 2 ^ (e - 2)

/-! ### Grid points that read back -/

theorem pow_toNat {x : ℚ} (hx : x ≠ 0) (z : Int) : x ^ z.toNat = x ^ z * x ^ (-z).toNat := by
  rw [← zpow_natCast, ← zpow_natCast, ← zpow_add₀ hx]
  congr 1
  omega

/-- The two parts of the ratio are the quarter unit and the grid step, both scaled by one number. -/
theorem exists_scale (e k : Int) : ∃ c : ℚ, 0 < c ∧ ((ratio e k).1 : ℚ) = 2 ^ (e - 2) * c ∧
    ((ratio e k).2 : ℚ) = 10 ^ k * c := by
  have htwo := pow_toNat (two_ne_zero : (2 : ℚ) ≠ 0) (e - 2)
  have hten := pow_toNat (by norm_num : (10 : ℚ) ≠ 0) k
  rw [neg_sub] at htwo
  refine ⟨2 ^ (2 - e).toNat * 10 ^ (-k).toNat, by positivity, ?_, ?_⟩
  · simp only [ratio, Nat.pow_eq]
    push_cast
    rw [htwo, mul_assoc]
  · simp only [ratio, Nat.pow_eq]
    push_cast
    rw [hten]
    ring

theorem roundsTo_of_readsBack (h : readsBack m e k d = true) : RoundsTo (d * 10 ^ k) m e := by
  obtain ⟨c, hc, hunit, hstep⟩ := exists_scale e k
  have hle : ∀ a b : Nat, a * (ratio e k).1 ≤ b * (ratio e k).2 ↔
      (a : ℚ) * 2 ^ (e - 2) ≤ b * 10 ^ k := fun a b => by
    rw [← mul_le_mul_iff_left₀ hc, mul_assoc, mul_assoc, ← hunit, ← hstep]
    norm_cast
  have hge : ∀ a b : Nat, b * (ratio e k).2 ≤ a * (ratio e k).1 ↔
      (b : ℚ) * 10 ^ k ≤ a * 2 ^ (e - 2) := fun a b => by
    rw [← mul_le_mul_iff_left₀ hc, mul_assoc, mul_assoc, ← hunit, ← hstep]
    norm_cast
  unfold readsBack at h
  dsimp only at h
  split at h
  · next heven =>
    rw [Bool.and_eq_true, decide_eq_true_eq, decide_eq_true_eq, hle, hge] at h
    exact ⟨h.1, h.2, fun hodd => by omega, fun hodd => by omega⟩
  · rw [Bool.and_eq_true, decide_eq_true_eq, decide_eq_true_eq, ← Nat.not_le, ← Nat.not_le, hge,
      hle, not_le, not_le] at h
    exact ⟨h.1.le, h.2.le, fun _ => h.1, fun _ => h.2⟩

theorem readsBack_of_onGrid (h : onGrid m e k = some d) : readsBack m e k d = true := by
  unfold onGrid at h
  dsimp only at h
  have hnearer : ∀ v b d, nearer v b d = d ∨ nearer v b d = d + 1 := fun v b d => by
    unfold nearer
    split_ifs <;> simp
  split at h
  · next h0 h1 =>
    cases h
    rcases hnearer _ _ _ with hd | hd <;> rw [hd]
    · exact h0
    · exact h1
  · next h0 _ => cases h; exact h0
  · next _ h1 => cases h; exact h1
  · cases h

/-! ### The float itself -/

theorem roundsTo_self (hm : 0 < m) (e : Int) : RoundsTo (m * 2 ^ e) m e := by
  have hquarter : (m : ℚ) * 2 ^ e = (4 * m : Nat) * 2 ^ (e - 2) := by
    have hpower : (2 : ℚ) ^ e = 2 ^ (2 : Int) * 2 ^ (e - 2) := by
      rw [← zpow_add₀ two_ne_zero]
      congr 1
      ring
    rw [hpower]
    push_cast
    ring
  have hpos : (0 : ℚ) < 2 ^ (e - 2) := zpow_pos two_pos _
  have hlow : (low m e : ℚ) * 2 ^ (e - 2) < (4 * m : Nat) * 2 ^ (e - 2) := by
    refine mul_lt_mul_of_pos_right ?_ hpos
    have : low m e < 4 * m := by
      unfold low
      split <;> omega
    exact_mod_cast this
  have hhigh : ((4 * m : Nat) : ℚ) * 2 ^ (e - 2) < high m * 2 ^ (e - 2) := by
    refine mul_lt_mul_of_pos_right ?_ hpos
    have : 4 * m < high m := by
      unfold high
      omega
    exact_mod_cast this
  rw [hquarter]
  exact ⟨hlow.le, hhigh.le, fun _ => hlow, fun _ => hhigh⟩

theorem value_exactly (m : Nat) (e : Int) : (exactly m e).value = m * 2 ^ e := by
  cases e with
  | ofNat j =>
    simp [exactly, value]
  | negSucc j =>
    have hten : (10 : ℚ) ^ (j + 1) = 5 ^ (j + 1) * 2 ^ (j + 1) := by
      rw [← mul_pow]
      norm_num
    simp only [exactly, value, Nat.pow_eq, zpow_negSucc, hten]
    push_cast
    rw [mul_assoc, mul_inv, mul_inv_cancel_left₀ (by positivity)]

/-- **The shortest decimal** of a float rounds to it. -/
theorem roundsTo_shortest (hm : 0 < m) (e : Int) : RoundsTo (shortest m e).value m e := by
  unfold shortest
  rw [if_neg hm.ne']
  dsimp only
  rcases hhit : (grids m e).findSome? fun k => (onGrid m e k).map fun d => (⟨d, k⟩ : Decimal) with
    _ | d
  · rw [Option.getD_none, value_exactly]
    exact roundsTo_self hm e
  · obtain ⟨k, -, hk⟩ := List.exists_of_findSome?_eq_some hhit
    obtain ⟨c, hc, rfl⟩ := Option.map_eq_some_iff.mp hk
    exact roundsTo_of_readsBack (readsBack_of_onGrid hc)

theorem value_shortest_zero (e : Int) : (shortest 0 e).value = 0 := by
  simp [shortest, value]

/-! ### Intervals are disjoint -/

theorem RoundsTo.pos (h : RoundsTo q m e) (hm : 0 < m) : 0 < q := by
  have hlow : 0 < low m e := by
    unfold low
    split <;> omega
  have hpos : (0 : ℚ) < low m e * 2 ^ (e - 2) := by positivity
  exact hpos.trans_le h.low_le

/-- If a number rounds to two floats, then the lower midpoint of the one is not above the upper
midpoint of the other, and below it if one of the factors is odd. -/
theorem RoundsTo.low_le_high (h : RoundsTo q m e) (h' : RoundsTo q n f) (hle : e ≤ f) :
    low n f * 2 ^ (f - e).toNat ≤ high m ∧
      (m % 2 = 1 ∨ n % 2 = 1 → low n f * 2 ^ (f - e).toNat < high m) := by
  have hpos : (0 : ℚ) < 2 ^ (e - 2) := zpow_pos two_pos _
  have hpower : (2 : ℚ) ^ (f - 2) = 2 ^ (f - e).toNat * 2 ^ (e - 2) := by
    rw [← zpow_natCast, ← zpow_add₀ two_ne_zero]
    congr 1
    omega
  have hlow : (low n f : ℚ) * 2 ^ (f - 2) = ((low n f * 2 ^ (f - e).toNat : Nat) : ℚ) *
      2 ^ (e - 2) := by
    rw [hpower]
    push_cast
    ring
  constructor
  · have hmid := h'.low_le.trans h.le_high
    rw [hlow, mul_le_mul_iff_left₀ hpos] at hmid
    exact_mod_cast hmid
  · intro hodd
    have hmid : (low n f : ℚ) * 2 ^ (f - 2) < high m * 2 ^ (e - 2) := by
      rcases hodd with hm | hn
      · exact h'.low_le.trans_lt (h.lt_high hm)
      · exact (h'.low_lt hn).trans_le h.le_high
    rw [hlow, mul_lt_mul_iff_left₀ hpos] at hmid
    exact_mod_cast hmid

/-- At one power of two, the interval of a factor lies above those of the smaller ones. -/
theorem RoundsTo.not_factor_lt (h : RoundsTo q m e) (h' : RoundsTo q n e) : ¬ m < n := by
  intro hlt
  obtain ⟨hle, hodd⟩ := h.low_le_high h' le_rfl
  rw [sub_self, Int.toNat_zero, Nat.pow_zero, Nat.mul_one] at hle hodd
  unfold low high at hle hodd
  split at hle
  · omega
  · next hfirst =>
    rw [if_neg hfirst] at hodd
    have hnext : n = m + 1 := by omega
    have := hodd (by omega)
    omega

/-- The intervals at a power of two lie above those at lower powers. -/
theorem RoundsTo.not_power_lt (h : RoundsTo q m e) (h' : RoundsTo q n f) (hc : Canonical m e)
    (hc' : Canonical n f) : ¬ e < f := by
  intro hlt
  have hfactor := hc.lt
  have hleast := hc.le_power
  have hfull : 2 ^ 52 ≤ n := hc'.full.resolve_right (by omega)
  obtain ⟨hle, hodd⟩ := h.low_le_high h' hlt.le
  have htwo : 2 ≤ 2 ^ (f - e).toNat := Nat.le_self_pow (by omega) 2
  have hdouble := Nat.mul_le_mul_left (low n f) htwo
  have hlow : low n f = 4 * n - 1 ∧ n = 2 ^ 52 ∨ low n f = 4 * n - 2 ∧ n ≠ 2 ^ 52 := by
    unfold low
    split
    · next hn => exact .inl ⟨rfl, hn.1⟩
    · next hn => exact .inr ⟨rfl, fun h0 => hn ⟨h0, by omega⟩⟩
  unfold high at hle hodd
  rcases hlow with ⟨hlow, hn⟩ | ⟨hlow, hn⟩
  · -- the midpoint below a power of two is the one above the largest factor, an odd one
    have hlast : m = 2 ^ 53 - 1 := by omega
    have := hodd (.inl (by omega))
    omega
  · omega

/-- **Rounding** is unique. -/
theorem RoundsTo.unique (h : RoundsTo q m e) (h' : RoundsTo q n f) (hc : Canonical m e)
    (hc' : Canonical n f) : m = n ∧ e = f := by
  obtain rfl : e = f := by
    have hlt := h.not_power_lt h' hc hc'
    have hgt := h'.not_power_lt h hc' hc
    omega
  have hlt := h.not_factor_lt h'
  have hgt := h'.not_factor_lt h
  exact ⟨by omega, rfl⟩

end Bagay.Decimal
