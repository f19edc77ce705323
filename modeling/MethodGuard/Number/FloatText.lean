/-
# Written forms of floating point numbers

Three texts of a floating point number occur in the library's answers: in a value's own text, in
the inspection of a value, and in JSON.  All three print the shortest digits that read back and
differ only in what a `FloatFormat` records: which way an exact tie goes, which magnitudes are
written without an exponent, whether a whole number keeps a fraction, and the sign of a positive
exponent.
-/
import MethodGuard.Number.Shortest

namespace MethodGuard

/-- What one way of writing floating point numbers decides. -/
structure FloatFormat where
  tie : Tie
  /-- Whether a decimal with this point is written without an exponent. -/
  positional : Int → Bool
  /-- Whether a whole number is written with `.0`. -/
  fraction : Bool
  /-- What stands before the digits of a positive exponent. -/
  exponentSign : String

namespace FloatFormat

/-- Values as texts: never an exponent, no fraction for whole numbers. -/
def plain : FloatFormat := ⟨.up, fun _ => true, false, ""⟩

/-- Values under inspection: positional from `1e-4` up to below `1e16`, always with a fraction. -/
def inspection : FloatFormat :=
  ⟨.up, fun point => decide (-3 ≤ point) && decide (point ≤ 16), true, ""⟩

/-- Numbers in JSON: positional from `1e-5` up to below `1e16`, always with a fraction or an
exponent. -/
def json : FloatFormat :=
  ⟨.even, fun point => decide (-4 ≤ point) && decide (point ≤ 16), true, "+"⟩

/-! ## 1. Writing a decimal -/

/-- A decimal without exponent. -/
def positionalText (format : FloatFormat) (d : Decimal) : List Char :=
  let n := d.digits.length
  if d.point ≤ 0 then
    '0' :: '.' :: (List.replicate (-d.point).toNat '0' ++ d.digits)
  else if (n : Int) ≤ d.point then
    d.digits ++ List.replicate (d.point.toNat - n) '0'
      ++ (if format.fraction then ['.', '0'] else [])
  else
    d.digits.take d.point.toNat ++ '.' :: d.digits.drop d.point.toNat

/-- A decimal with one digit before the point and an exponent. -/
def exponentText (format : FloatFormat) (d : Decimal) : List Char :=
  let e := d.point - 1
  let mark := if e < 0 then "-" else format.exponentSign
  let tail := d.digits.drop 1
  d.digits.take 1 ++ (if tail.isEmpty then [] else '.' :: tail)
    ++ 'e' :: (mark.toList ++ Nat.toDigits 10 e.natAbs)

/-- The digits of a finite number, without its sign. -/
def magnitudeText (format : FloatFormat) (d : Double) : List Char :=
  if d.isZero then (if format.fraction then ['0', '.', '0'] else ['0'])
  else
    let decimal := Shortest.decimal format.tie d
    if format.positional decimal.point then format.positionalText decimal
    else format.exponentText decimal

/-! ## 2. Writing a number -/

/-- The text of a number in a format; infinities and the missing number have names. -/
def render (format : FloatFormat) (d : Double) : String :=
  if d.isNaN then "NaN"
  else
    let sign := if d.isNegative then "-" else ""
    if d.isInfinite then sign ++ "inf"
    else sign ++ String.ofList (format.magnitudeText d)

end FloatFormat

end MethodGuard
