/-
# Blanks, comments, strings and keys of TOML

Scanners take what they recognise from the front of the text and give back the rest.
-/
import MethodGuard.Text.Hexadecimal

namespace MethodGuard

namespace Toml

/-- Something recognised at the front of a text, and what follows it. -/
abbrev Scan (α : Type) := List Char → Option (α × List Char)

/-! ## 1. Blanks, ends of lines, comments -/

/-- Blanks within a line. -/
def isBlank (c : Char) : Bool := c == ' ' || c == '\t'

/-- The text after its leading blanks. -/
def skipBlanks (cs : List Char) : List Char := cs.dropWhile isBlank

/-- The text after an end of line, if it starts with one. -/
def newline? : List Char → Option (List Char)
  | '\n' :: rest => some rest
  | '\r' :: '\n' :: rest => some rest
  | _ => none

/-- Whether a character may stand in a comment or in a string: a tab, or no control. -/
def isPlain (c : Char) : Bool := c == '\t' || (decide (32 ≤ c.toNat) && !(c.toNat == 127))

/-- The text after a comment, if it starts with one. -/
def skipComment : List Char → List Char
  | '#' :: rest => rest.dropWhile isPlain
  | cs => cs

/-- The text after the end of a line that holds nothing more than blanks and a comment. -/
def lineEnd? (cs : List Char) : Option (List Char) :=
  match skipComment (skipBlanks cs) with
  | [] => some []
  | rest => newline? rest

/-! ## 2. Strings -/

/-- The character of a code point, unless it is no character. -/
def character? (n : Nat) : Option Char :=
  if n < 0xD800 ∨ (0xDFFF < n ∧ n < 0x110000) then some (Char.ofNat n) else none

/-- The character written with exactly `count` hexadecimal digits. -/
def scanCodePoint (count : Nat) (cs : List Char) : Option (Char × List Char) :=
  let digits := cs.take count
  if digits.length < count then none
  else ((Hexadecimal.number? digits).bind character?).map fun c => (c, cs.drop count)

/-- The character of an escape, after its backslash. -/
def scanEscape : Scan Char
  | 'b' :: rest => some ('\x08', rest)
  | 't' :: rest => some ('\t', rest)
  | 'n' :: rest => some ('\n', rest)
  | 'f' :: rest => some ('\x0c', rest)
  | 'r' :: rest => some ('\r', rest)
  | '"' :: rest => some ('"', rest)
  | '\\' :: rest => some ('\\', rest)
  | 'u' :: rest => scanCodePoint 4 rest
  | 'U' :: rest => scanCodePoint 8 rest
  | _ => none

/-- The text after blanks and ends of lines. -/
def skipLines : (fuel : Nat) → List Char → List Char
  | 0, cs => cs
  | fuel + 1, cs =>
    match newline? (skipBlanks cs) with
    | some rest => skipLines fuel rest
    | none => skipBlanks cs

/-- A string on one line, up to its closing quote. -/
def scanLine (quote : Char) (escapes : Bool) : (fuel : Nat) → (done : List Char) → Scan String
  | 0, _, _ => none
  | _, _, [] => none
  | fuel + 1, done, c :: rest =>
    if c = quote then some (String.ofList done.reverse, rest)
    else if escapes && c == '\\' then
      match scanEscape rest with
      | some (e, rest') => scanLine quote escapes fuel (e :: done) rest'
      | none => none
    else if isPlain c then scanLine quote escapes fuel (c :: done) rest
    else none

/-- A string on several lines, up to its three closing quotes; up to two quotes may stand right
before these.  A backslash at the end of a line takes the blanks and line ends after it away. -/
def scanLines (quote : Char) (escapes : Bool) : (fuel : Nat) → (done : List Char) → Scan String
  | 0, _, _ => none
  | _, _, [] => none
  | fuel + 1, done, c :: rest =>
    if c = quote then
      let run := (c :: rest).takeWhile (· == quote)
      let after := (c :: rest).dropWhile (· == quote)
      if run.length < 3 then scanLines quote escapes fuel (run ++ done) after
      else if run.length ≤ 5 then
        some (String.ofList (List.replicate (run.length - 3) quote ++ done).reverse, after)
      else none
    else if escapes && c == '\\' then
      match newline? (skipBlanks rest) with
      | some after => scanLines quote escapes fuel done (skipLines after.length after)
      | none =>
        match scanEscape rest with
        | some (e, rest') => scanLines quote escapes fuel (e :: done) rest'
        | none => none
    else
      match newline? (c :: rest) with
      | some after => scanLines quote escapes fuel ('\n' :: done) after
      | none => if isPlain c then scanLines quote escapes fuel (c :: done) rest else none

/-- A string value of any of the four forms. -/
def scanString (cs : List Char) : Option (String × List Char) :=
  let lines (quote : Char) (escapes : Bool) (rest : List Char) : Option (String × List Char) :=
    scanLines quote escapes (rest.length + 1) [] ((newline? rest).getD rest)
  match cs with
  | '"' :: '"' :: '"' :: rest => lines '"' true rest
  | '\'' :: '\'' :: '\'' :: rest => lines '\'' false rest
  | '"' :: rest => scanLine '"' true (rest.length + 1) [] rest
  | '\'' :: rest => scanLine '\'' false (rest.length + 1) [] rest
  | _ => none

/-! ## 3. Keys -/

/-- Characters of keys without quotes. -/
def isBare (c : Char) : Bool := c.isAlphanum || c == '_' || c == '-'

/-- One key. -/
def scanSimpleKey : Scan String
  | '"' :: rest => scanLine '"' true (rest.length + 1) [] rest
  | '\'' :: rest => scanLine '\'' false (rest.length + 1) [] rest
  | cs =>
    let name := cs.takeWhile isBare
    if name.isEmpty then none else some (String.ofList name, cs.dropWhile isBare)

/-- The number of parts that a dotted key stays below. -/
def keyLimit : Nat := 80

/-- Keys with dots between them, at most `fuel`, and the blanks around them. -/
def scanParts : (fuel : Nat) → Scan (List String)
  | 0, _ => none
  | fuel + 1, cs =>
    match scanSimpleKey (skipBlanks cs) with
    | none => none
    | some (key, rest) =>
      match skipBlanks rest with
      | '.' :: rest' => (scanParts fuel rest').map fun found => (key :: found.1, found.2)
      | rest' => some ([key], rest')

/-- A key of one or more parts. -/
def scanKey (cs : List Char) : Option (List String × List Char) := scanParts (keyLimit - 1) cs

end Toml

end MethodGuard
