import Bagay.Decimal
import Bagay.Decimal.Exact

/-!
# The shortest decimal of a float

Between a float `m · 2 ^ e` and its two neighbours lie the midpoints at which rounding changes. A
decimal reads back as the float when it lies between these midpoints, and on a midpoint when `m` is
even. The shortest decimal lies on the coarsest grid of multiples of a power of ten that has a point
in this interval, and is the point of that grid nearest to the float, with an even coefficient if
two are equally near.

The interval is measured in quarters of the float's unit, `2 ^ (e - 2)`: the midpoints are two
quarters away, and one quarter below a power of two, where the floats are twice as dense.

* `readsBack`: whether a grid point lies in the interval.
* `onGrid`: the nearest of the grid points that read back.
* `shortest`: the first hit, going from the coarsest grid to the finest.
* `display`: a float as text.
-/

namespace Bagay.Decimal

/-- The lower end of the interval that rounds to `m · 2 ^ e`, in quarter units. -/
def low (m : Nat) (e : Int) : Nat :=
  if m = Nat.pow 2 52 ∧ -1074 < e then 4 * m - 1 else 4 * m - 2

/-- The upper end of the interval that rounds to `m · 2 ^ e`, in quarter units. -/
def high (m : Nat) : Nat :=
  4 * m + 2

/-- The quarter unit `2 ^ (e - 2)` over the grid step `10 ^ k`, as numerator and denominator. -/
def ratio (e k : Int) : Nat × Nat :=
  (Nat.pow 2 (e - 2).toNat * Nat.pow 10 (-k).toNat, Nat.pow 2 (2 - e).toNat * Nat.pow 10 k.toNat)

/-- Whether the grid point `d · 10 ^ k` rounds to `m · 2 ^ e`. -/
def readsBack (m : Nat) (e k : Int) (d : Nat) : Bool :=
  let (a, b) := ratio e k
  if m % 2 = 0 then low m e * a ≤ d * b && d * b ≤ high m * a
  else low m e * a < d * b && d * b < high m * a

/-- The coefficient of the grid point next to `v / b` among the two around it, where `d` is the
lower of them; of two equally near points the one with an even coefficient. -/
def nearer (v b d : Nat) : Nat :=
  if 2 * v < (2 * d + 1) * b then d
  else if (2 * d + 1) * b < 2 * v then d + 1
  else if d % 2 = 0 then d else d + 1

/-- The multiple of `10 ^ k` that is nearest to `m · 2 ^ e` among those that read back. -/
def onGrid (m : Nat) (e k : Int) : Option Nat :=
  let (a, b) := ratio e k
  let v := 4 * m * a
  let d := v / b
  match readsBack m e k d, readsBack m e k (d + 1) with
  | true, true => some (nearer v b d)
  | true, false => some d
  | false, true => some (d + 1)
  | false, false => none

/-- The power of ten of the first digit of `m · 2 ^ e`. A fraction is first multiplied by a power
of ten that leaves it at least as large as `m`. -/
def leading (m : Nat) : Int → Int
  | .ofNat e => (Nat.toDigits 10 (m * Nat.pow 2 e)).length - 1
  | .negSucc e =>
    (Nat.toDigits 10 (m * Nat.pow 10 (e + 1) / Nat.pow 2 (e + 1))).length - 1 - (e + 1 : Nat)

/-- The powers of ten whose grids are searched, from the coarsest to the one of seventeen digits. -/
def grids (m : Nat) (e : Int) : List Int :=
  (List.range 18).map fun n : Nat => leading m e + 1 - n

/-- The decimal equal to `m · 2 ^ e`. -/
def exactly (m : Nat) : Int → Decimal
  | .ofNat e => ⟨m * Nat.pow 2 e, 0⟩
  | .negSucc e => ⟨m * Nat.pow 5 (e + 1), .negSucc e⟩

/-- The shortest decimal that reads back as `m · 2 ^ e`. Zero has the coefficient zero, and a number
that no searched grid can hit would be given exactly. -/
def shortest (m : Nat) (e : Int) : Decimal :=
  if m = 0 then ⟨0, 0⟩
  else
    let hit := (grids m e).findSome? fun k => (onGrid m e k).map fun d => ⟨d, k⟩
    hit.getD (exactly m e)

/-- Floats are written with their point in place from a ten-thousandth up to `10 ^ 16`, and with a
power of ten of at least two digits outside this range. -/
def layout : Layout :=
  ⟨-4, 16, 2⟩

/-- The sign in front of a number. -/
def sign (negative : Bool) : String :=
  if negative then "-" else ""

/-- A float as text: its shortest decimal, or one of the names `nan` and `inf`. -/
def display (x : Float) : String :=
  match Exact.ofFloat x with
  | .nan => "nan"
  | .infinite negative => sign negative ++ "inf"
  | .finite negative m e => sign negative ++ String.ofList (layout.write (shortest m e))

end Bagay.Decimal
