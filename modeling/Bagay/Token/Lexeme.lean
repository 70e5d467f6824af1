import Bagay.Token

/-!
# Cutting a source into lexemes

A source is cut from left to right, each time taking the longest lexeme that starts at the current
character: white space, a string literal up to its closing quote or, without one, up to the end of
the source, a run of digits, a word, an operator, or a single character that starts none of these.
Letters, digits and white space are those of ASCII. White space carries no token; every other lexeme
carries one.

* `Lexeme.next`: the first lexeme of a source and what follows it.
* `spelling_next`: nothing is lost between the two.
* `Lexeme.cut`: all lexemes of a source; `flatMap_spelling_cut`: their spellings make up the source.
* `Token.lex`: the tokens of a source; `isUnterminated` tells whether its last string literal ran
  to the end of the source.
-/

namespace Bagay

/-- A character that can open a word: an ASCII letter or an underscore. -/
def isWordStart (c : Char) : Bool :=
  c.isAlpha || c = '_'

/-- A character that can continue a word: an ASCII letter, a digit or an underscore. -/
def isWordRest (c : Char) : Bool :=
  c.isAlphanum || c = '_'

/-- The operators of one character other than the minus sign, which may open an arrow. -/
def isMark (c : Char) : Bool :=
  c = '=' || c = '+' || c = ';'

/-- A piece of a source. -/
inductive Lexeme
  /-- A run of white space. -/
  | space (text : List Char)
  /-- A string literal without its quotes, and whether the closing quote is there. -/
  | string (body : List Char) (closed : Bool)
  /-- A run of digits. -/
  | number (digits : List Char)
  /-- A word, reserved or not. -/
  | word (text : List Char)
  /-- The arrow between a name and its data type. -/
  | arrow
  /-- An operator of one character. -/
  | mark (c : Char)
  /-- A character that starts nothing else. -/
  | unknown (c : Char)
  deriving DecidableEq, Repr

namespace Lexeme

/-- The characters of a lexeme in the source. -/
def spelling : Lexeme → List Char
  | space text => text
  | string body closed => '"' :: (body ++ if closed then ['"'] else [])
  | number digits => digits
  | word text => text
  | arrow => ['-', '>']
  | mark c => [c]
  | unknown c => [c]

/-- The token that a lexeme carries; white space carries none. -/
def token? : Lexeme → Option Token
  | space _ => none
  | string body _ => some ⟨.string, String.ofList body⟩
  | number digits => some ⟨.number, String.ofList digits⟩
  | word text => some (Token.ofWord (String.ofList text))
  | arrow => some ⟨.operator, "->"⟩
  | mark c => some ⟨.operator, String.ofList [c]⟩
  | unknown c => some ⟨.unknown, String.ofList [c]⟩

/-- Whether a lexeme is a string literal without a closing quote. -/
def isOpen : Lexeme → Bool
  | string _ closed => !closed
  | _ => false

/-! ### The first lexeme -/

/-- The rest of a string literal after its opening quote, and what follows the literal. -/
def stringTail (cs : List Char) : Lexeme × List Char :=
  let body := cs.takeWhile (· ≠ '"')
  match cs.dropWhile (· ≠ '"') with
  | [] => (string body false, [])
  | _ :: rest => (string body true, rest)

/-- What a minus sign opens: an arrow if a greater-than sign follows, otherwise itself. -/
def minusTail : List Char → Lexeme × List Char
  | '>' :: rest => (arrow, rest)
  | rest => (mark '-', rest)

/-- The lexeme that starts at the character `c`, and what follows it. -/
def next (c : Char) (cs : List Char) : Lexeme × List Char :=
  if c = '"' then stringTail cs
  else if c.isDigit then (number (c :: cs.takeWhile Char.isDigit), cs.dropWhile Char.isDigit)
  else if isWordStart c then (word (c :: cs.takeWhile isWordRest), cs.dropWhile isWordRest)
  else if c = '-' then minusTail cs
  else if isMark c then (mark c, cs)
  else if c.isWhitespace then
    (space (c :: cs.takeWhile Char.isWhitespace), cs.dropWhile Char.isWhitespace)
  else (unknown c, cs)

/-- What stops the search for a closing quote is a quote. -/
theorem eq_quote_of_dropWhile {cs rest : List Char} {d : Char}
    (h : cs.dropWhile (· ≠ '"') = d :: rest) : d = '"' := by
  have := List.head?_dropWhile_not (· ≠ '"') cs
  simp only [h, List.head?_cons] at this
  simpa using this

theorem spelling_stringTail (cs : List Char) :
    (stringTail cs).1.spelling ++ (stringTail cs).2 = '"' :: cs := by
  have h := List.takeWhile_append_dropWhile (p := (· ≠ '"')) (l := cs)
  unfold stringTail
  split
  · next hd =>
    rw [hd, List.append_nil] at h
    simpa [spelling] using h
  · next d rest hd =>
    rw [hd, eq_quote_of_dropWhile hd] at h
    simpa [spelling] using h

theorem spelling_minusTail (cs : List Char) :
    (minusTail cs).1.spelling ++ (minusTail cs).2 = '-' :: cs := by
  unfold minusTail; split <;> simp [spelling]

/-- Nothing is lost between the first lexeme and the rest. -/
theorem spelling_next (c : Char) (cs : List Char) :
    (next c cs).1.spelling ++ (next c cs).2 = c :: cs := by
  unfold next
  split
  · next h => simp [spelling_stringTail, h]
  split
  · simp [spelling]
  split
  · simp [spelling]
  split
  · next h => simp [spelling_minusTail, h]
  split
  · simp [spelling]
  split
  · simp [spelling]
  · simp [spelling]

theorem spelling_next_ne_nil (c : Char) (cs : List Char) : (next c cs).1.spelling ≠ [] := by
  have hs : ∀ ds, (stringTail ds).1.spelling ≠ [] := fun ds => by
    unfold stringTail; split <;> simp [spelling]
  have hm : ∀ ds, (minusTail ds).1.spelling ≠ [] := fun ds => by
    unfold minusTail; split <;> simp [spelling]
  unfold next
  split
  · exact hs cs
  split
  · simp [spelling]
  split
  · simp [spelling]
  split
  · exact hm cs
  split
  · simp [spelling]
  split
  · simp [spelling]
  · simp [spelling]

theorem length_next_lt (c : Char) (cs : List Char) :
    (next c cs).2.length < (c :: cs).length := by
  have h := congrArg List.length (spelling_next c cs)
  have hpos := List.length_pos_iff.2 (spelling_next_ne_nil c cs)
  rw [List.length_append] at h
  omega

/-! ### All lexemes -/

/-- The lexemes of a source, from left to right. -/
def cut : List Char → List Lexeme
  | [] => []
  | c :: cs => (next c cs).1 :: cut (next c cs).2
termination_by cs => cs.length
decreasing_by exact length_next_lt c cs

@[simp] theorem cut_nil : cut [] = [] := by simp [cut]

theorem cut_cons (c : Char) (cs : List Char) :
    cut (c :: cs) = (next c cs).1 :: cut (next c cs).2 := by
  rw [cut]

/-- The spellings of the lexemes make up the source. -/
theorem flatMap_spelling_cut (cs : List Char) : (cut cs).flatMap spelling = cs := by
  fun_induction cut cs with
  | case1 => rfl
  | case2 c cs ih => rw [List.flatMap_cons, ih, spelling_next]

end Lexeme

/-! ### Tokens -/

/-- The tokens of a source. -/
def Token.lex (source : String) : List Token :=
  (Lexeme.cut source.toList).filterMap Lexeme.token?

/-- Whether a string literal of the source has no closing quote. -/
def isUnterminated (source : String) : Bool :=
  (Lexeme.cut source.toList).any Lexeme.isOpen

end Bagay
