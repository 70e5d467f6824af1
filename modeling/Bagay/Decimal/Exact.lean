/-!
# The exact value of a float

A float is not a number, an infinity, or a signed multiple of a power of two. `Exact.ofFloat`
reads off which of these it is; zero is the multiple with the factor zero, so that it keeps its
sign.

* `Exact.integer?`: the integer that a float is equal to, if there is one.
-/

namespace Bagay

/-- What a float stands for. -/
inductive Exact
  /-- Not a number. -/
  | nan
  /-- An infinity. -/
  | infinite (negative : Bool)
  /-- The number `± m · 2 ^ e`. -/
  | finite (negative : Bool) (m : Nat) (e : Int)
  deriving DecidableEq, Repr

namespace Exact

/-- Whether a sign is the negative one. -/
def isNegative : Float.Model.UnpackedFloat.Sign → Bool
  | .negative => true
  | .positive => false

/-- The exact value of a float. -/
def ofFloat (x : Float) : Exact :=
  match x.toModel.unpack with
  | .notANumber => nan
  | .infinity s => infinite (isNegative s)
  | .zero s => finite (isNegative s) 0 0
  | .finite s m e _ => finite (isNegative s) m e

/-- The natural number equal to `m · 2 ^ e`, if there is one. -/
def natural? (m : Nat) : Int → Option Nat
  | .ofNat e => some (m * Nat.pow 2 e)
  | .negSucc e => if Nat.pow 2 (e + 1) ∣ m then some (m / Nat.pow 2 (e + 1)) else none

/-- The integer equal to the exact value, if there is one. -/
def integer? : Exact → Option Int
  | finite negative m e => (natural? m e).map fun n => if negative then -(n : Int) else n
  | _ => none

end Exact

end Bagay
