/-
# JSON texts as written

Reading a JSON text has two halves.  The first sees only its shape: `Written` is the tree of a
text in which numbers are still digits and strings still hold their escapes.  The second gives it
a meaning, and may refuse: a number may be too large, a surrogate may stand alone, containers may
nest too deeply.  The halves are apart because a reader of records passes over members it does not
know, whose shape counts and whose meaning does not.
-/
import MethodGuard.Json.Number

namespace MethodGuard

/-- A piece of a string as written: a character, or the UTF-16 unit of a `\u` escape. -/
inductive Piece where
  | char (c : Char)
  | unit (n : Nat)

/-- A JSON text as written. -/
inductive Written where
  | null
  | boolean (b : Bool)
  | number (n : NumberLiteral)
  | string (pieces : List Piece)
  | array (items : List Written)
  | object (members : List (List Piece × Written))

namespace Written

instance : Inhabited Written := ⟨.null⟩

/-! ## 1. Strings -/

/-- Whether a UTF-16 unit is the first half of a pair. -/
def isHigh (n : Nat) : Bool := decide (0xD800 ≤ n) && decide (n ≤ 0xDBFF)

/-- Whether a UTF-16 unit is the second half of a pair. -/
def isLow (n : Nat) : Bool := decide (0xDC00 ≤ n) && decide (n ≤ 0xDFFF)

/-- The character of a pair. -/
def pair (high low : Nat) : Char := Char.ofNat ((high - 0xD800) * 0x400 + (low - 0xDC00) + 0x10000)

/-- The characters of a string; halves of pairs must come together. -/
def characters? : List Piece → Option (List Char)
  | [] => some []
  | .char c :: rest => (characters? rest).map (c :: ·)
  | .unit n :: rest =>
    if isHigh n then
      match rest with
      | .unit m :: rest' => if isLow m then (characters? rest').map (pair n m :: ·) else none
      | _ => none
    else if isLow n then none
    else (characters? rest).map (Char.ofNat n :: ·)

/-- The text of a string. -/
def text? (pieces : List Piece) : Option String := (characters? pieces).map String.ofList

/-! ## 2. Values -/

/-- How deep containers may nest. -/
def depthLimit : Nat := 127

/-- What a text means, when at most `depth` containers may nest. -/
def meaning? : (depth : Nat) → Written → Option Json
  | _, .null => some .null
  | _, .boolean b => some (.boolean b)
  | _, .number n => n.meaning?
  | _, .string pieces => (text? pieces).map .string
  | 0, .array _ => none
  | 0, .object _ => none
  | depth + 1, .array items => (items.mapM (meaning? depth)).map .array
  | depth + 1, .object members =>
    (members.mapM fun (member : List Piece × Written) =>
      match text? member.1, meaning? depth member.2 with
      | some key, some value => some (key, value)
      | _, _ => none).map .object

end Written

end MethodGuard
