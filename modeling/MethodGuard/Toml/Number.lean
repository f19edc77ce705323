/-
# Numbers and dates of TOML

The library reads no number from an options document, yet a document is refused when one of its
numbers or dates is malformed or too large.
-/
import MethodGuard.Number.Double
import MethodGuard.Toml.Basic
import MethodGuard.Toml.Text

namespace MethodGuard

namespace Toml

/-! ## 1. Digits -/

/-- The value of a digit in a base. -/
def digit? (base : Nat) (c : Char) : Option Nat :=
  match Hexadecimal.value? c with
  | some n => if n < base then some n else none
  | none => none

/-- Digits after the first, with single underscores between digits. -/
def moreDigits (base : Nat) : List Char → List Nat × List Char
  | [] => ([], [])
  | c :: rest =>
    match digit? base c with
    | some d =>
      let found := moreDigits base rest
      (d :: found.1, found.2)
    | none =>
      match c, rest with
      | '_', e :: rest' =>
        match digit? base e with
        | some d =>
          let found := moreDigits base rest'
          (d :: found.1, found.2)
        | none => ([], c :: rest)
      | _, _ => ([], c :: rest)

/-- One digit or more, with single underscores between digits. -/
def scanDigits (base : Nat) : Scan (List Nat)
  | [] => none
  | c :: rest =>
    match digit? base c with
    | some d =>
      let found := moreDigits base rest
      some (d :: found.1, found.2)
    | none => none

/-- The number of a sequence of digits. -/
def valueOf (base : Nat) (digits : List Nat) : Nat := digits.foldl (fun n d => n * base + d) 0

/-- Whether a sign is there and is a minus, and the text after it. -/
def skipSign : List Char → Bool × List Char
  | '-' :: rest => (true, rest)
  | '+' :: rest => (false, rest)
  | cs => (false, cs)

/-- The digits of a decimal integer: a zero alone, or digits that start with another. -/
def scanDecimal : Scan (List Nat)
  | '0' :: rest => some ([0], rest)
  | cs => scanDigits 10 cs

/-! ## 2. Integers and floats -/

/-- An integer in another base, which 63 bits must hold. -/
def scanBased (base : Nat) (cs : List Char) : Option (Node × List Char) :=
  match scanDigits base cs with
  | some (digits, rest) =>
    if valueOf base digits < 0x8000000000000000 then some (.number, rest) else none
  | none => none

/-- Whether `digits * 10 ^ e` is too large for a float. -/
def isTooLarge (digits : List Nat) (e : Int) : Bool :=
  let n := valueOf 10 digits
  let size := ((Nat.toDigits 10 n).length : Int) + e
  if n = 0 || size < -400 then false
  else if 400 < size then true
  else (Double.ofRatio false (n * Nat.pow 10 e.toNat) (Nat.pow 10 (-e).toNat)).isInfinite

/-- The exponent at the front, if there is one. -/
def scanExponent : Scan (Option Int)
  | c :: rest =>
    if c = 'e' ∨ c = 'E' then
      let (minus, rest') := skipSign rest
      match scanDigits 10 rest' with
      | some (digits, after) =>
        let e : Int := valueOf 10 digits
        some (some (if minus then -e else e), after)
      | none => none
    else some (none, c :: rest)
  | [] => some (none, [])

/-- A float that is not too large, or an integer that 64 bits hold, after its sign. -/
def scanMagnitude (minus : Bool) (cs : List Char) : Option (Node × List Char) :=
  match cs with
  | 'i' :: 'n' :: 'f' :: rest => some (.number, rest)
  | 'n' :: 'a' :: 'n' :: rest => some (.number, rest)
  | _ =>
    match scanDecimal cs with
    | none => none
    | some (whole, '.' :: rest) =>
      match scanDigits 10 rest with
      | none => none
      | some (fraction, rest') =>
        match scanExponent rest' with
        | none => none
        | some (e, after) =>
          if !minus && isTooLarge (whole ++ fraction) (e.getD 0 - fraction.length) then none
          else some (.number, after)
    | some (whole, rest) =>
      match scanExponent rest with
      | none => none
      | some (some e, after) =>
        if !minus && isTooLarge whole e then none else some (.number, after)
      | some (none, after) =>
        let bound := if minus then 0x8000000000000001 else 0x8000000000000000
        if valueOf 10 whole < bound then some (.number, after) else none

/-- A number of any form. -/
def scanNumber : Scan Node
  | '0' :: 'x' :: rest => scanBased 16 rest
  | '0' :: 'o' :: rest => scanBased 8 rest
  | '0' :: 'b' :: rest => scanBased 2 rest
  | cs =>
    let (minus, rest) := skipSign cs
    scanMagnitude minus rest

/-! ## 3. Dates and times -/

/-- Exactly `count` digits. -/
def scanFixed (count : Nat) (cs : List Char) : Option (Nat × List Char) :=
  let digits := cs.take count
  if digits.length < count then none
  else (digits.mapM (digit? 10)).map fun values => (valueOf 10 values, cs.drop count)

/-- Exactly two digits with a value between two bounds. -/
def scanTwo (low high : Nat) (cs : List Char) : Option (Nat × List Char) :=
  match scanFixed 2 cs with
  | some (n, rest) => if low ≤ n ∧ n ≤ high then some (n, rest) else none
  | none => none

/-- The number of days in a month. -/
def daysIn (year month : Nat) : Nat :=
  if month = 2 then
    if year % 4 = 0 ∧ (year % 100 ≠ 0 ∨ year % 400 = 0) then 29 else 28
  else if month = 4 ∨ month = 6 ∨ month = 9 ∨ month = 11 then 30
  else 31

/-- A date; the text after it. -/
def scanDate (cs : List Char) : Option (List Char) :=
  match scanFixed 4 cs with
  | some (year, '-' :: rest) =>
    match scanTwo 1 12 rest with
    | some (month, '-' :: rest') =>
      match scanTwo 1 31 rest' with
      | some (day, after) => if day ≤ daysIn year month then some after else none
      | none => none
    | _ => none
  | _ => none

/-- The text after a fraction of a second, if there is one. -/
def skipFraction : List Char → List Char
  | '.' :: c :: rest => if c.isDigit then rest.dropWhile Char.isDigit else '.' :: c :: rest
  | cs => cs

/-- A time of day; the text after it. -/
def scanTime (cs : List Char) : Option (List Char) :=
  match scanTwo 0 23 cs with
  | some (_, ':' :: rest) =>
    match scanTwo 0 59 rest with
    | some (_, ':' :: rest') =>
      match scanTwo 0 60 rest' with
      | some (_, after) => some (skipFraction after)
      | none => none
    | _ => none
  | _ => none

/-- The text after an offset from universal time, if there is one. -/
def skipOffset : List Char → List Char
  | 'Z' :: rest => rest
  | 'z' :: rest => rest
  | cs =>
    match cs with
    | c :: rest =>
      if c = '+' ∨ c = '-' then
        match scanTwo 0 23 rest with
        | some (_, ':' :: rest') =>
          match scanTwo 0 59 rest' with
          | some (_, after) => after
          | none => cs
        | _ => cs
      else cs
    | [] => cs

/-- A date, a time, or both. -/
def scanDateTime (cs : List Char) : Option (Node × List Char) :=
  match scanDate cs with
  | some rest =>
    match rest with
    | c :: rest' =>
      if c = 'T' ∨ c = 't' ∨ c = ' ' then
        match scanTime rest' with
        | some after => some (.dateTime, skipOffset after)
        | none => some (.dateTime, rest)
      else some (.dateTime, rest)
    | [] => some (.dateTime, [])
  | none => (scanTime cs).map fun after => (.dateTime, after)

end Toml

end MethodGuard
