import Std.Data.TreeMap
import Bagay.Decimal.Shortest
import Bagay.Program

/-!
# Values and bindings

A value is a number or a text. Numbers are added and subtracted, texts are joined, and no operator
mixes the two. A table of bindings gives each declared name its value, in the order of the names.

* `Op.apply`: the value of an operator between two values, where it has one.
* `Value.display`: a value as it is printed. A number equal to an integer is printed as that
  integer, with all its digits.
-/

namespace Bagay

/-- Values. -/
inductive Value
  | number (x : Float)
  | text (s : String)
  deriving DecidableEq, Repr

/-- The bound names with their values. -/
abbrev Bindings := Std.TreeMap String Value

namespace Value

/-- A value as it is printed. -/
def display : Value → String
  | number x =>
    match (Exact.ofFloat x).integer? with
    | some n => n.repr
    | none => Decimal.display x
  | text s => s

/-- Whether two values are of one kind and equal, numbers as numbers: the two zeros are equal, and
what is not a number differs from itself. -/
def agrees : Value → Value → Bool
  | number x, number y => x == y
  | text s, text t => s == t
  | _, _ => false

end Value

/-- The value of an operator between two values: sums and differences of numbers, and texts joined
end to end. -/
def Op.apply : Op → Value → Value → Option Value
  | .add, .number x, .number y => some (.number (x + y))
  | .add, .text s, .text t => some (.text (s ++ t))
  | .sub, .number x, .number y => some (.number (x - y))
  | _, _, _ => none

end Bagay
