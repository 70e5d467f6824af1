import Bagay.Text.Quoted
import Mathlib.Tactic.Ring

/-!
# Written forms that end by themselves

A way to write things is self-delimiting if, in front of any text, both the thing and the text that
follows can be told. Written forms of this kind can be put one after the other without loss.

A quoted text is self-delimiting although it may hold all characters, its delimiters included. Its
first character is the delimiter, which is never written by itself inside; and the escapes inside
can be undone one after the other, since the character behind a backslash tells how many follow.

* `Delimits f a`, `SelfDelimiting f`: the property, for one thing and for all.
* `unescape_escape`: undoing one escape.
* `selfDelimiting_quote`: quoted texts.
* `bracketed_inj`: a bracketed list of self-delimiting items determines its items.
-/

namespace Bagay

variable {α : Type} {f : α → String}

/-- In front of any text, `f a` differs from all `f b`, and it can be told where it ends. -/
def Delimits (f : α → String) (a : α) : Prop :=
  ∀ ⦃b : α⦄ ⦃r r' : List Char⦄, (f a).toList ++ r = (f b).toList ++ r' → a = b ∧ r = r'

/-- In front of any text, it can be told what is written and where it ends. -/
def SelfDelimiting (f : α → String) : Prop := ∀ a, Delimits f a

/-- A text that is the same on both sides may stand in between. -/
theorem Delimits.append_inj {a b : α} (hf : Delimits f a) (u : List Char) {r r' : List Char}
    (h : (f a).toList ++ (u ++ r) = (f b).toList ++ (u ++ r')) : a = b ∧ r = r' := by
  obtain ⟨hab, htail⟩ := hf h
  exact ⟨hab, List.append_cancel_left htail⟩

theorem SelfDelimiting.injective (hf : SelfDelimiting f) : Function.Injective f := by
  intro a b h
  exact (hf a (congrArg (·.toList ++ []) h)).1

/-- Up to a character that both texts do not have, they are equal. -/
theorem append_cons_inj_of_not_mem {d : Char} {us vs r r' : List Char} (hus : d ∉ us)
    (hvs : d ∉ vs) (h : us ++ d :: r = vs ++ d :: r') : us = vs ∧ r = r' := by
  induction us generalizing vs with
  | nil =>
    cases vs with
    | nil => exact ⟨rfl, (List.cons.inj h).2⟩
    | cons v vs =>
      have hv : d = v := (List.cons.inj h).1
      exact absurd (hv ▸ List.mem_cons_self) hvs
  | cons u us ih =>
    cases vs with
    | nil =>
      have hu : u = d := (List.cons.inj h).1
      exact absurd (hu ▸ List.mem_cons_self) hus
    | cons v vs =>
      obtain ⟨rfl, htail⟩ := List.cons.inj h
      rw [List.mem_cons, not_or] at hus hvs
      obtain ⟨rfl, hr⟩ := ih hus.2 hvs.2 htail
      exact ⟨rfl, hr⟩

namespace Text

/-! ### Hexadecimal digits -/

/-- The number that a hexadecimal digit stands for. -/
def hexValue (c : Char) : Nat := if c.isDigit then c.toNat - 48 else c.toNat - 87

/-- The number with the given hexadecimal digits. -/
def ofHex (cs : List Char) : Nat := cs.foldl (fun n c => 16 * n + hexValue c) 0

theorem hexValue_digitChar : ∀ d < 16, hexValue (Nat.digitChar d) = d := by decide

theorem ofHex_toDigits (n : Nat) : ofHex (Nat.toDigits 16 n) = n := by
  induction n using Nat.strongRecOn with
  | ind n ih =>
    rw [Nat.toDigits_eq_if (by decide)]
    split
    · next hlt =>
      have hdigit := hexValue_digitChar n hlt
      simpa [ofHex] using hdigit
    · next hle =>
      have hrest := ih (n / 16) (by omega)
      have hdigit := hexValue_digitChar (n % 16) (Nat.mod_lt n (by decide))
      unfold ofHex at hrest ⊢
      rw [List.foldl_append, hrest, List.foldl_cons, List.foldl_nil, hdigit]
      omega

theorem ofHex_hex (width n : Nat) : ofHex (hex width n) = n := by
  have hzeros : ∀ k, (List.replicate k '0').foldl (fun n c => 16 * n + hexValue c) 0 = 0 := by
    intro k
    induction k with
    | zero => rfl
    | succ k ih => exact ih
  have hdigits := ofHex_toDigits n
  unfold ofHex at hdigits ⊢
  rw [hex, List.foldl_append, hzeros, hdigits]

theorem length_hex {width n : Nat} (hpos : 0 < width) (h : n < 16 ^ width) :
    (hex width n).length = width := by
  have hlength := (Nat.length_toDigits_le_iff (by decide) hpos).mpr h
  rw [hex, List.length_append, List.length_replicate]
  omega

/-! ### Undoing an escape -/

/-- The character that the first escape of a text stands for, and what follows the escape. -/
def unescape : List Char → Option (Char × List Char)
  | '\\' :: 'n' :: r => some ('\n', r)
  | '\\' :: 'r' :: r => some ('\r', r)
  | '\\' :: 't' :: r => some ('\t', r)
  | '\\' :: 'x' :: r => some (.ofNat (ofHex (r.take 2)), r.drop 2)
  | '\\' :: 'u' :: r => some (.ofNat (ofHex (r.take 4)), r.drop 4)
  | '\\' :: 'U' :: r => some (.ofNat (ofHex (r.take 8)), r.drop 8)
  | '\\' :: c :: r => some (c, r)
  | c :: r => some (c, r)
  | [] => none

variable {c d : Char} {r r' : List Char}

theorem unescape_code {width : Nat} (hpos : 0 < width) (h : c.toNat < 16 ^ width) (r : List Char) :
    (Char.ofNat (ofHex ((hex width c.toNat ++ r).take width)),
      (hex width c.toNat ++ r).drop width) = (c, r) := by
  have hlength := length_hex hpos h
  rw [List.take_left' hlength, List.drop_left' hlength, ofHex_hex, Char.ofNat_toNat]

theorem unescape_escapeCode (c : Char) (r : List Char) :
    unescape (escapeCode c ++ r) = some (c, r) := by
  have hchar : c.toNat < 16 ^ 8 := c.val.toNat_lt
  unfold escapeCode
  split
  · next h => exact congrArg some (unescape_code (by decide) (by omega) r)
  · split
    · next h => exact congrArg some (unescape_code (by decide) (by omega) r)
    · exact congrArg some (unescape_code (by decide) hchar r)

theorem unescape_cons (hc : c ≠ '\\') (r : List Char) : unescape (c :: r) = some (c, r) := by
  unfold unescape
  split <;> simp_all

/-- **Escapes** can be undone. -/
theorem unescape_escape (hd : d = '\'' ∨ d = '"') (c : Char) (r : List Char) :
    unescape (escape d c ++ r) = some (c, r) := by
  unfold escape
  split
  · next h =>
    rcases h with rfl | rfl
    · rfl
    · rcases hd with rfl | rfl <;> rfl
  · next h =>
    split
    · next hc => rw [hc]; rfl
    split
    · next hc => rw [hc]; rfl
    split
    · next hc => rw [hc]; rfl
    split
    · exact unescape_cons (fun hc => h (.inl hc)) r
    · exact unescape_escapeCode c r

/-- The delimiter is never written by itself. -/
theorem exists_cons_escape (hd : d = '\'' ∨ d = '"') (c : Char) :
    ∃ a cs, escape d c = a :: cs ∧ a ≠ d := by
  have hslash : '\\' ≠ d := by rcases hd with rfl | rfl <;> decide
  unfold escape
  split
  · exact ⟨_, _, rfl, hslash⟩
  · next h =>
    split
    · exact ⟨_, _, rfl, hslash⟩
    split
    · exact ⟨_, _, rfl, hslash⟩
    split
    · exact ⟨_, _, rfl, hslash⟩
    split
    · exact ⟨_, _, rfl, fun hc => h (.inr hc)⟩
    · unfold escapeCode
      split
      · exact ⟨_, _, rfl, hslash⟩
      · split <;> exact ⟨_, _, rfl, hslash⟩

/-! ### Quoted texts -/

theorem delimiter_eq (cs : List Char) : delimiter cs = '\'' ∨ delimiter cs = '"' := by
  unfold delimiter
  split
  · exact .inr rfl
  · exact .inl rfl

/-- Two escaped texts up to their delimiter: one escape after the other is undone. -/
theorem flatMap_escape_inj (hd : d = '\'' ∨ d = '"') {cs ds : List Char}
    (h : cs.flatMap (escape d) ++ d :: r = ds.flatMap (escape d) ++ d :: r') :
    cs = ds ∧ r = r' := by
  induction cs generalizing ds with
  | nil =>
    cases ds with
    | nil => exact ⟨rfl, (List.cons.inj h).2⟩
    | cons c ds =>
      obtain ⟨a, us, hc, hne⟩ := exists_cons_escape hd c
      rw [List.flatMap_cons, hc] at h
      exact absurd (List.cons.inj h).1.symm hne
  | cons b cs ih =>
    cases ds with
    | nil =>
      obtain ⟨a, us, hb, hne⟩ := exists_cons_escape hd b
      rw [List.flatMap_cons, hb] at h
      exact absurd (List.cons.inj h).1 hne
    | cons c ds =>
      have hfirst := congrArg unescape h
      rw [List.flatMap_cons, List.append_assoc, unescape_escape hd, List.flatMap_cons,
        List.append_assoc, unescape_escape hd] at hfirst
      obtain ⟨rfl, htail⟩ := Prod.mk.inj (Option.some.inj hfirst)
      obtain ⟨rfl, hr⟩ := ih htail
      exact ⟨rfl, hr⟩

theorem toList_quote_append (s : String) (r : List Char) : (quote s).toList ++ r =
    delimiter s.toList :: (s.toList.flatMap (escape (delimiter s.toList)) ++
      delimiter s.toList :: r) := by
  simp [quote]

/-- **Quoted texts** are self-delimiting. -/
theorem selfDelimiting_quote : SelfDelimiting quote := by
  intro s t r r' h
  rw [toList_quote_append, toList_quote_append] at h
  obtain ⟨hdelimiter, htail⟩ := List.cons.inj h
  rw [← hdelimiter] at htail
  obtain ⟨hst, hr⟩ := flatMap_escape_inj (delimiter_eq s.toList) htail
  exact ⟨String.toList_injective hst, hr⟩

theorem quote_append_ne (hc : c ≠ '\'' ∧ c ≠ '"') (s : String) (r r' : List Char) :
    (quote s).toList ++ r ≠ c :: r' := by
  rw [toList_quote_append]
  intro h
  obtain ⟨rfl, -⟩ := List.cons.inj h
  rcases delimiter_eq s.toList with hd | hd
  · exact hc.1 hd
  · exact hc.2 hd

/-! ### Lists -/

/-- The items behind the first one, up to the closing bracket. -/
def laterItems (f : α → String) (as : List α) : List Char :=
  as.flatMap (fun a => ',' :: ' ' :: (f a).toList) ++ [']']

theorem toList_bracketed_cons (f : α → String) (a : α) (as : List α) :
    (bracketed ((a :: as).map f)).toList = '[' :: ((f a).toList ++ laterItems f as) := by
  have hitems : ∀ a, (String.intercalate ", " ((a :: as).map f)).toList ++ [']'] =
      (f a).toList ++ laterItems f as := by
    induction as with
    | nil => simp [laterItems]
    | cons b as ih =>
      intro a
      have hb := ih b
      rw [List.map_cons] at hb ⊢
      rw [List.map_cons, String.intercalate_cons_cons]
      simp only [String.toList_append, List.append_assoc, hb, laterItems, List.flatMap_cons]
      rfl
  unfold bracketed
  rw [String.toList_append, String.toList_append, List.append_assoc]
  exact congrArg ('[' :: ·) (hitems a)

theorem laterItems_inj (hf : SelfDelimiting f) {as bs : List α}
    (h : laterItems f as = laterItems f bs) : as = bs := by
  induction as generalizing bs with
  | nil =>
    cases bs with
    | nil => rfl
    | cons b bs => simp [laterItems] at h
  | cons a as ih =>
    cases bs with
    | nil => simp [laterItems] at h
    | cons b bs =>
      have hitem : (f a).toList ++ laterItems f as = (f b).toList ++ laterItems f bs := by
        simpa [laterItems] using h
      obtain ⟨rfl, htail⟩ := hf a hitem
      rw [ih htail]

/-- **Lists** of self-delimiting items determine their items, if no item starts with the closing
bracket. -/
theorem bracketed_inj (hf : SelfDelimiting f) (hne : ∀ a r, (f a).toList ++ r ≠ [']'])
    {as bs : List α} : bracketed (as.map f) = bracketed (bs.map f) ↔ as = bs := by
  refine ⟨fun h => ?_, fun h => by rw [h]⟩
  have hnil : (bracketed (([] : List α).map f)).toList = ['[', ']'] := by
    simp [bracketed]
  have hlist := congrArg String.toList h
  cases as with
  | nil =>
    cases bs with
    | nil => rfl
    | cons b bs =>
      rw [hnil, toList_bracketed_cons] at hlist
      exact absurd (List.cons.inj hlist).2.symm (hne b _)
  | cons a as =>
    cases bs with
    | nil =>
      rw [hnil, toList_bracketed_cons] at hlist
      exact absurd (List.cons.inj hlist).2 (hne a _)
    | cons b bs =>
      rw [toList_bracketed_cons, toList_bracketed_cons] at hlist
      obtain ⟨rfl, htail⟩ := hf a (List.cons.inj hlist).2
      rw [laterItems_inj hf htail]

end Text

end Bagay
