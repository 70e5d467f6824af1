/-!
# Decimals and their layout

A decimal is a natural coefficient times a power of ten. Written out, a decimal of moderate size
has its point in place and at least one digit on either side of it; a very large or very small one
has a single digit before the point and its power of ten after the letter `e`, with a sign and at
least two digits. A `Decimal.Layout` holds these choices.

* `Layout.write`: the digits of a decimal as a layout sets them.
-/

namespace Bagay

/-- The number `coefficient · 10 ^ exponent`. -/
structure Decimal where
  coefficient : Nat
  exponent : Int
  deriving DecidableEq, Repr

namespace Decimal

/-- The digits of the coefficient. -/
def digits (d : Decimal) : List Char :=
  Nat.toDigits 10 d.coefficient

/-- The power of ten of the first digit. -/
def magnitude (d : Decimal) : Int :=
  d.exponent + d.digits.length - 1

/-- The choices in writing a decimal. -/
structure Layout where
  /-- The least magnitude that is written with its point in place. -/
  pointFrom : Int
  /-- The magnitude from which on the point is no longer in place. -/
  pointBelow : Int
  /-- The least number of digits in a written power of ten. -/
  powerDigits : Nat
  deriving DecidableEq, Repr

/-- The digits of a number, with zeros in front up to a width. -/
def padded (width n : Nat) : List Char :=
  let ds := Nat.toDigits 10 n
  List.replicate (width - ds.length) '0' ++ ds

/-- Digits behind a point, if there are any. -/
def pointed : List Char → List Char
  | [] => []
  | ds => '.' :: ds

/-- The decimal with its point in place: zeros fill up to the point on either side, and a digit
stands on both sides of it. -/
def positional (d : Decimal) : List Char :=
  match d.exponent with
  | .ofNat k => d.digits ++ List.replicate k '0' ++ ['.', '0']
  | .negSucc k =>
    let ds := padded (k + 2) d.coefficient
    let whole := ds.length - (k + 1)
    ds.take whole ++ '.' :: ds.drop whole

/-- A power of ten after the letter `e`, with its sign and at least `width` digits. -/
def power (width : Nat) (k : Int) : List Char :=
  'e' :: (if k < 0 then '-' else '+') :: padded width k.natAbs

/-- The decimal with one digit before the point, and the point only if digits follow it. -/
def scientific (width : Nat) (d : Decimal) : List Char :=
  d.digits.take 1 ++ pointed d.digits.tail ++ power width d.magnitude

/-- The decimal as the layout sets it. -/
def Layout.write (l : Layout) (d : Decimal) : List Char :=
  if l.pointFrom ≤ d.magnitude ∧ d.magnitude < l.pointBelow then d.positional
  else d.scientific l.powerDigits

end Decimal

end Bagay
