/-!
# Blanks around a numeral

A numeral may stand between blanks: the white space of ASCII, the next-line and no-break
characters, and the space, line and paragraph separators of the other scripts.

* `trim`: a text without the blanks at its two ends.
-/

namespace Bagay.Text

/-- The ranges of code points that count as blank, in ascending order, both ends included. -/
def blanks : List (Nat × Nat) :=
  [(0x9, 0xd), (0x20, 0x20), (0x85, 0x85), (0xa0, 0xa0), (0x1680, 0x1680), (0x2000, 0x200a),
    (0x2028, 0x2029), (0x202f, 0x202f), (0x205f, 0x205f), (0x3000, 0x3000)]

/-- Whether a character is a blank. -/
def isBlank (c : Char) : Bool :=
  blanks.any fun r => r.1 ≤ c.toNat && c.toNat ≤ r.2

/-- The text without the blanks at its two ends. -/
def trim (cs : List Char) : List Char :=
  ((cs.dropWhile isBlank).reverse.dropWhile isBlank).reverse

theorem trim_eq_self {cs : List Char} (h : ∀ c ∈ cs, isBlank c = false) : trim cs = cs := by
  have key : ∀ l : List Char, (∀ c ∈ l, isBlank c = false) → l.dropWhile isBlank = l
    | [], _ => rfl
    | c :: l, hl => by rw [List.dropWhile_cons, if_neg (by simp [hl c (by simp)])]
  rw [trim, key cs h, key cs.reverse (by simpa using h), List.reverse_reverse]

end Bagay.Text
