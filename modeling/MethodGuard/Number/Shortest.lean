/-
# The fewest digits that read back

A finite binary64 number is the nearest one to every decimal in an interval around it.  Its
shortest decimal is the one in that interval with the fewest digits, and of those with that many
the nearest to the number.  `Shortest.decimal` finds it by looking, for one digit, two digits and
so on, at the two neighbours of the number on the grid of decimals with that many digits: if any
point of a grid lies in the interval, so does one of these two.  All arithmetic is exact.

Only an exact tie between the two neighbours leaves a choice; which way it goes is the format's
decision (`Tie`).
-/
import MethodGuard.Number.Double

namespace MethodGuard

/-- A decimal number `0.d₁d₂… * 10 ^ point`, by its digits, of which the first and the last are
not `0`. -/
structure Decimal where
  digits : List Char
  point : Int

/-- Where a decimal halfway between two candidates goes. -/
inductive Tie where
  /-- To the greater magnitude. -/
  | up
  /-- To the candidate whose last digit is even. -/
  | even
  deriving DecidableEq

namespace Shortest

/-! ## 1. The interval of decimals that read back -/

/-- The interval around a number, as natural numbers over one denominator. -/
structure Interval where
  low : Nat
  value : Nat
  high : Nat
  denominator : Nat
  /-- Whether the ends belong to it: they do when the mantissa is even. -/
  closed : Bool

/-- The decimals that round to a finite number.  Below a power of two the neighbour is only half
as far away. -/
def interval (d : Double) : Interval :=
  let m := d.mantissa
  let below := if d.fractionField = 0 && decide (1 < d.exponentField) then 1 else 2
  let unit := if 1074 ≤ d.scale then 1 <<< (d.scale - 1074) else 1
  let den := if 1074 ≤ d.scale then 1 else 1 <<< (1074 - d.scale)
  { low := (4 * m - below) * unit
    value := 4 * m * unit
    high := (4 * m + 2) * unit
    denominator := 4 * den
    closed := m % 2 == 0 }

/-! ## 2. The two neighbours on a grid -/

/-- The number of decimal digits of a natural number that is not zero. -/
def width (n : Nat) : Nat := (Nat.toDigits 10 n).length

/-- The exponent `p` with `10 ^ (p - 1) ≤ value < 10 ^ p`.  No number is as small as
`10 ^ (-400)`, so the whole part of `value * 10 ^ 400` has all the digits that count. -/
def magnitude (i : Interval) : Int :=
  (width (i.value * Nat.pow 10 400 / i.denominator) : Int) - 400

/-- The candidate on the grid of multiples of `10 ^ grid`, if one of the two neighbours reads
back. -/
def candidate? (tie : Tie) (i : Interval) (grid : Int) : Option Nat :=
  let up := Nat.pow 10 (-grid).toNat
  let den := i.denominator * Nat.pow 10 grid.toNat
  let lower := i.value * up / den
  let rest := i.value * up % den
  let inLow := i.low * up < lower * den || (i.closed && i.low * up == lower * den)
  let inHigh := (lower + 1) * den < i.high * up || (i.closed && (lower + 1) * den == i.high * up)
  if rest = 0 then some lower
  else if inLow && inHigh then
    if 2 * rest < den then some lower
    else if 2 * rest > den then some (lower + 1)
    else match tie with
      | .up => some (lower + 1)
      | .even => some (if lower % 2 = 0 then lower else lower + 1)
  else if inLow then some lower
  else if inHigh then some (lower + 1)
  else none

/-! ## 3. The shortest decimal -/

/-- Drop the zeros at the end. -/
def dropTrailingZeros (digits : List Char) : List Char :=
  (digits.reverse.dropWhile (· == '0')).reverse

/-- The decimal `n * 10 ^ grid`. -/
def ofGrid (n : Nat) (grid : Int) : Decimal :=
  ⟨dropTrailingZeros (Nat.toDigits 10 n), grid + width n⟩

/-- The shortest decimal that reads back as a finite number other than zero.  Seventeen digits
always do. -/
def decimal (tie : Tie) (d : Double) : Decimal :=
  let i := interval d
  let top := magnitude i
  let hit := (List.range 17).findSome? fun (n : Nat) =>
    let grid := top - (n + 1 : Int)
    (candidate? tie i grid).map fun c => ofGrid c grid
  hit.getD ⟨[], 0⟩

end Shortest

end MethodGuard
