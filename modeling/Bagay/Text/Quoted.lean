import Bagay.Text.Printable

/-!
# Quoted texts

A text is quoted between two delimiters. Apostrophes delimit, unless the text holds an apostrophe
and no double quote; then double quotes do. Inside, a backslash and the delimiter are written after
a backslash, line feed, carriage return and tab have their letters, and any other character that is
not printable is written by its code point in two, four or eight hexadecimal digits.

* `quote`: the quoted text.
* `bracketed`: a list of written items, as `[a, b]`.
-/

namespace Bagay.Text

/-- The character that delimits a quoted text. -/
def delimiter (cs : List Char) : Char :=
  if '\'' ∈ cs ∧ '"' ∉ cs then '"' else '\''

/-- The number in lower-case hexadecimal digits, with zeros in front up to the width. -/
def hex (width n : Nat) : List Char :=
  let ds := Nat.toDigits 16 n
  List.replicate (width - ds.length) '0' ++ ds

/-- The code point of a character after a backslash, in the shortest of the three widths. -/
def escapeCode (c : Char) : List Char :=
  if c.toNat ≤ 0xff then '\\' :: 'x' :: hex 2 c.toNat
  else if c.toNat ≤ 0xffff then '\\' :: 'u' :: hex 4 c.toNat
  else '\\' :: 'U' :: hex 8 c.toNat

/-- One character of a quoted text, as it is written between delimiters `d`. -/
def escape (d c : Char) : List Char :=
  if c = '\\' ∨ c = d then ['\\', c]
  else if c = '\n' then ['\\', 'n']
  else if c = '\r' then ['\\', 'r']
  else if c = '\t' then ['\\', 't']
  else if isPrintable c then [c]
  else escapeCode c

/-- The quoted form of a text. -/
def quote (s : String) : String :=
  let cs := s.toList
  let d := delimiter cs
  String.ofList (d :: cs.flatMap (escape d) ++ [d])

/-- A list of written items between brackets, with a comma and a space between two of them. -/
def bracketed (items : List String) : String :=
  "[" ++ String.intercalate ", " items ++ "]"

end Bagay.Text
