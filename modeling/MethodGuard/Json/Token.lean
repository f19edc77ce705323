/-
# The tokens of a JSON text

A JSON text is a sequence of tokens with blanks between them: six punctuation marks, three words,
numbers and strings.  `Token.scan` finds them, or fails when something else stands in the text.
Two tokens that may not stand side by side, such as two numbers, are no matter of this module.
-/
import MethodGuard.Json.Written

namespace MethodGuard

/-- A token of a JSON text. -/
inductive Token where
  | beginArray
  | endArray
  | beginObject
  | endObject
  | colon
  | comma
  | null
  | boolean (b : Bool)
  | number (n : NumberLiteral)
  | string (pieces : List Piece)

namespace Token

/-! ## 1. Characters -/

/-- The four blanks. -/
def isBlank (c : Char) : Bool := c == ' ' || c == '\t' || c == '\n' || c == '\r'

/-- The UTF-16 unit written with four hexadecimal digits. -/
def unit? (a b c d : Char) : Option Nat := Hexadecimal.number? [a, b, c, d]

/-- The character of an escape with one letter. -/
def shortEscape? (c : Char) : Option Char :=
  if c = '"' then some '"'
  else if c = '\\' then some '\\'
  else if c = '/' then some '/'
  else if c = 'b' then some '\x08'
  else if c = 'f' then some '\x0c'
  else if c = 'n' then some '\n'
  else if c = 'r' then some '\r'
  else if c = 't' then some '\t'
  else none

/-- The value of a decimal digit. -/
def digitValue (c : Char) : Nat := c.toNat - 48

/-! ## 2. Strings and numbers -/

/-- The pieces of a string up to its closing quote, and what follows it. -/
def scanString : List Char → Option (List Piece × List Char)
  | [] => none
  | '"' :: rest => some ([], rest)
  | '\\' :: 'u' :: a :: b :: c :: d :: rest =>
    match unit? a b c d with
    | some n => (scanString rest).map fun found => (.unit n :: found.1, found.2)
    | none => none
  | '\\' :: e :: rest =>
    match shortEscape? e with
    | some c => (scanString rest).map fun found => (.char c :: found.1, found.2)
    | none => none
  | c :: rest =>
    if c.toNat < 32 then none
    else (scanString rest).map fun found => (.char c :: found.1, found.2)

/-- The digits at the front, and what follows them. -/
def digits (cs : List Char) : List Nat × List Char :=
  ((cs.takeWhile Char.isDigit).map digitValue, cs.dropWhile Char.isDigit)

/-- At least one digit at the front, and what follows. -/
def someDigits? (cs : List Char) : Option (List Nat × List Char) :=
  let found := digits cs
  if found.1.isEmpty then none else some found

/-- The whole part of a number: a zero alone, or digits that start with another. -/
def scanWhole : List Char → Option (List Nat × List Char)
  | '0' :: rest => some ([0], rest)
  | cs => someDigits? cs

/-- The fraction of a number, if a point follows. -/
def scanFraction : List Char → Option (Option (List Nat) × List Char)
  | '.' :: rest => (someDigits? rest).map fun found => (some found.1, found.2)
  | cs => some (none, cs)

/-- The digits of an exponent, with its sign before them. -/
def scanExponentDigits : List Char → Option (Option (Bool × List Nat) × List Char)
  | '+' :: rest => (someDigits? rest).map fun found => (some (false, found.1), found.2)
  | '-' :: rest => (someDigits? rest).map fun found => (some (true, found.1), found.2)
  | cs => (someDigits? cs).map fun found => (some (false, found.1), found.2)

/-- The exponent of a number, if one follows. -/
def scanExponent : List Char → Option (Option (Bool × List Nat) × List Char)
  | 'e' :: rest => scanExponentDigits rest
  | 'E' :: rest => scanExponentDigits rest
  | cs => some (none, cs)

/-- A number without its sign, and what follows it. -/
def scanMagnitude (negative : Bool) (cs : List Char) : Option (NumberLiteral × List Char) :=
  match scanWhole cs with
  | none => none
  | some (whole, cs₁) =>
    match scanFraction cs₁ with
    | none => none
    | some (fraction, cs₂) =>
      match scanExponent cs₂ with
      | none => none
      | some (exponent, cs₃) => some (⟨negative, whole, fraction, exponent⟩, cs₃)

/-- A number, and what follows it. -/
def scanNumber : List Char → Option (NumberLiteral × List Char)
  | '-' :: rest => scanMagnitude true rest
  | cs => scanMagnitude false cs

/-! ## 3. What is left is shorter -/

theorem scanString_length : {cs rest : List Char} → {pieces : List Piece} →
    scanString cs = some (pieces, rest) → rest.length < cs.length := by
  intro cs
  fun_induction scanString cs with
  | case1 => intro rest pieces h; cases h
  | case2 tail => intro rest pieces h; cases h; simp
  | case3 a b c d tail n _ ih =>
    intro rest pieces h
    obtain ⟨found, hf, he⟩ := Option.map_eq_some_iff.mp h
    cases he
    have := ih hf
    simp only [List.length_cons]
    omega
  | case4 => intro rest pieces h; cases h
  | case5 e tail _ c _ ih =>
    intro rest pieces h
    obtain ⟨found, hf, he⟩ := Option.map_eq_some_iff.mp h
    cases he
    have := ih hf
    simp only [List.length_cons]
    omega
  | case6 => intro rest pieces h; cases h
  | case7 => intro rest pieces h; cases h
  | case8 c tail _ _ _ _ ih =>
    intro rest pieces h
    obtain ⟨found, hf, he⟩ := Option.map_eq_some_iff.mp h
    cases he
    have := ih hf
    simp only [List.length_cons]
    omega

theorem length_dropWhile_le (p : Char → Bool) (cs : List Char) :
    (cs.dropWhile p).length ≤ cs.length := by
  induction cs with
  | nil => simp
  | cons c rest ih =>
    simp only [List.dropWhile_cons]
    split
    · simp only [List.length_cons]; omega
    · simp

theorem someDigits?_length {cs rest : List Char} {ds : List Nat}
    (h : someDigits? cs = some (ds, rest)) : rest.length < cs.length := by
  cases cs with
  | nil => simp [someDigits?, digits] at h
  | cons c tail =>
    by_cases hc : c.isDigit = true
    · have hle := length_dropWhile_le Char.isDigit tail
      simp [someDigits?, digits, hc] at h
      rw [← h.2]
      simp only [List.length_cons]
      omega
    · simp [someDigits?, digits, hc] at h

theorem scanWhole_length {cs rest : List Char} {ds : List Nat}
    (h : scanWhole cs = some (ds, rest)) : rest.length < cs.length := by
  unfold scanWhole at h
  split at h
  · cases h; simp
  · exact someDigits?_length h

theorem scanFraction_length {cs rest : List Char} {f : Option (List Nat)}
    (h : scanFraction cs = some (f, rest)) : rest.length ≤ cs.length := by
  unfold scanFraction at h
  split at h
  · obtain ⟨found, hf, he⟩ := Option.map_eq_some_iff.mp h
    cases he
    have := someDigits?_length hf
    simp only [List.length_cons]
    omega
  · cases h; exact Nat.le_refl _

theorem scanExponentDigits_length {cs rest : List Char} {e : Option (Bool × List Nat)}
    (h : scanExponentDigits cs = some (e, rest)) : rest.length ≤ cs.length := by
  unfold scanExponentDigits at h
  split at h
  · obtain ⟨found, hf, he⟩ := Option.map_eq_some_iff.mp h
    cases he
    have := someDigits?_length hf
    simp only [List.length_cons]
    omega
  · obtain ⟨found, hf, he⟩ := Option.map_eq_some_iff.mp h
    cases he
    have := someDigits?_length hf
    simp only [List.length_cons]
    omega
  · obtain ⟨found, hf, he⟩ := Option.map_eq_some_iff.mp h
    cases he
    have := someDigits?_length hf
    omega

theorem scanExponent_length {cs rest : List Char} {e : Option (Bool × List Nat)}
    (h : scanExponent cs = some (e, rest)) : rest.length ≤ cs.length := by
  unfold scanExponent at h
  split at h
  · have := scanExponentDigits_length h; simp only [List.length_cons]; omega
  · have := scanExponentDigits_length h; simp only [List.length_cons]; omega
  · cases h; exact Nat.le_refl _

theorem scanMagnitude_length {negative : Bool} {cs rest : List Char} {n : NumberLiteral}
    (h : scanMagnitude negative cs = some (n, rest)) : rest.length < cs.length := by
  unfold scanMagnitude at h
  split at h
  · cases h
  · rename_i hw
    split at h
    · cases h
    · rename_i hf
      split at h
      · cases h
      · rename_i he
        cases h
        have := scanWhole_length hw
        have := scanFraction_length hf
        have := scanExponent_length he
        omega

theorem scanNumber_length {cs rest : List Char} {n : NumberLiteral}
    (h : scanNumber cs = some (n, rest)) : rest.length < cs.length := by
  unfold scanNumber at h
  split at h
  · have := scanMagnitude_length h
    simp only [List.length_cons]
    omega
  · exact scanMagnitude_length h

/-! ## 4. All tokens -/

/-- The punctuation mark or the blank that a character is. -/
def mark? (c : Char) : Option Token :=
  if c = '[' then some .beginArray
  else if c = ']' then some .endArray
  else if c = '\x7b' then some .beginObject
  else if c = '\x7d' then some .endObject
  else if c = ':' then some .colon
  else if c = ',' then some .comma
  else none

/-- The tokens of a text. -/
def scan (cs : List Char) : Option (List Token) :=
  match cs with
  | [] => some []
  | 'n' :: 'u' :: 'l' :: 'l' :: rest => (scan rest).map (.null :: ·)
  | 't' :: 'r' :: 'u' :: 'e' :: rest => (scan rest).map (.boolean true :: ·)
  | 'f' :: 'a' :: 'l' :: 's' :: 'e' :: rest => (scan rest).map (.boolean false :: ·)
  | c :: rest =>
    if isBlank c then scan rest
    else
      match mark? c with
      | some mark => (scan rest).map (mark :: ·)
      | none =>
        if c = '"' then
          match _h : scanString rest with
          | some (pieces, rest') => (scan rest').map (.string pieces :: ·)
          | none => none
        else
          match _h : scanNumber (c :: rest) with
          | some (n, rest') => (scan rest').map (.number n :: ·)
          | none => none
termination_by cs.length
decreasing_by
  all_goals simp only [List.length_cons]
  · omega
  · omega
  · omega
  · omega
  · omega
  · have := scanString_length _h; omega
  · have := scanNumber_length _h; simp only [List.length_cons] at this; omega

end Token

end MethodGuard
