/-
# What a JSON number means

A number without fraction and exponent is an integer as long as 64 bits hold it.  Every other
number is a float, and is worked out in binary64 arithmetic: digits are collected into a 64-bit
significand, which is then multiplied or divided by a power of ten.  A digit that the significand
has no room for is dropped; before the point it leaves a factor of ten behind.  Each of the two
steps rounds, so the result is not always the float nearest to the written number.
-/
import MethodGuard.Json.Basic

namespace MethodGuard

/-- A JSON number as written: its digits, and the sign and digits of its exponent. -/
structure NumberLiteral where
  negative : Bool
  whole : List Nat
  fraction : Option (List Nat)
  exponent : Option (Bool × List Nat)

namespace NumberLiteral

/-! ## 1. The significand -/

/-- Take digits into the significand as long as 64 bits hold it; also the number of digits left
over. -/
def accumulate (significand : Nat) : List Nat → Nat × Nat
  | [] => (significand, 0)
  | d :: rest =>
    if significand * 10 + d < UInt64.size then accumulate (significand * 10 + d) rest
    else (significand, rest.length + 1)

/-- The significand of a number and the power of ten that its digits leave it with. -/
def significand (n : NumberLiteral) : Nat × Int :=
  let (w, dropped) := accumulate 0 n.whole
  let digits := n.fraction.getD []
  let (s, unread) := accumulate w digits
  (s, (dropped : Int) - ((digits.length - unread : Nat) : Int))

/-! ## 2. Scaling by a power of ten -/

/-- The float nearest to a power of ten. -/
def powerOfTen (n : Nat) : Double := Double.ofRatio false (Nat.pow 10 n) 1

/-- A float times ten to the power of `e`, in steps that binary64 arithmetic can take; `none` when
the product is too large. -/
def scale? (f : Double) (e : Int) : Option Double :=
  if e.natAbs ≤ 308 then
    if 0 ≤ e then
      let product := f.mulMagnitude (powerOfTen e.natAbs)
      if product.isInfinite then none else some product
    else some (f.divMagnitude (powerOfTen e.natAbs))
  else if f.isZero then some f
  else if h : 0 ≤ e then none
  else scale? (f.divMagnitude (powerOfTen 308)) (e + 308)
termination_by (-e).toNat
decreasing_by omega

/-! ## 3. The meaning -/

/-- The value of a sequence of digits. -/
def valueOf (digits : List Nat) : Nat := digits.foldl (fun n d => n * 10 + d) 0

/-- The float of a number with its exponent, without its sign.  An exponent that 32 bits do not
hold makes the number too large or zero. -/
def float? (n : NumberLiteral) : Option Double :=
  let (s, e) := n.significand
  match n.exponent with
  | none => scale? (Double.ofInt s) e
  | some (minus, digits) =>
    let x := valueOf digits
    if x < 0x80000000 then scale? (Double.ofInt s) (if minus then e - x else e + x)
    else if s = 0 || minus then some (Double.zero false)
    else none

/-- Whether the number is written without fraction and exponent. -/
def isWhole (n : NumberLiteral) : Bool := n.fraction.isNone && n.exponent.isNone

/-- What a number means, if it is not too large.  Minus zero is a float. -/
def meaning? (n : NumberLiteral) : Option Json :=
  let (s, left) := accumulate 0 n.whole
  if n.isWhole && left == 0 then
    if n.negative then
      if s = 0 || 0x8000000000000000 < s then some (.float (Double.ofInt s).neg)
      else some (.integer (-s))
    else some (.integer s)
  else n.float?.map fun f => .float (if n.negative then f.neg else f)

end NumberLiteral

end MethodGuard
