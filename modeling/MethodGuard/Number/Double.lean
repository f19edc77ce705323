/-
# Binary64 numbers, by their bits

A floating point number is its 64 bits: a sign, an exponent field and a fraction field.  The
library never adds floating point numbers.  It rounds integers and decimal texts TO them, prints
them, and compares them, so those are the operations given here, in exact arithmetic on natural
numbers: a finite number is `mantissa * 2 ^ (scale - 1074)`, and `ofRatio` is the one place where
anything is rounded (to nearest, a half going to the even neighbour).
-/

namespace MethodGuard

/-- A binary64 number, as its bits. -/
structure Double where
  bits : UInt64
  deriving DecidableEq

namespace Double

/-! ## 1. The fields -/

/-- The place value of the sign bit. -/
def signBit : Nat := 0x8000000000000000

/-- The place value of the lowest exponent bit, which is also that of the hidden bit of a
mantissa. -/
def hiddenBit : Nat := 0x10000000000000

/-- Whether the sign bit is set. -/
def isNegative (d : Double) : Bool := d.bits.toNat / signBit == 1

/-- The eleven exponent bits. -/
def exponentField (d : Double) : Nat := d.bits.toNat / hiddenBit % 2048

/-- The fifty-two fraction bits. -/
def fractionField (d : Double) : Nat := d.bits.toNat % hiddenBit

/-- Whether the bits stand for no number at all. -/
def isNaN (d : Double) : Bool := d.exponentField == 2047 && !(d.fractionField == 0)

/-- Whether the bits stand for an infinity. -/
def isInfinite (d : Double) : Bool := d.exponentField == 2047 && d.fractionField == 0

/-- Whether the bits stand for a number, zero included. -/
def isFinite (d : Double) : Bool := !(d.exponentField == 2047)

/-- Whether the bits stand for zero, of either sign. -/
def isZero (d : Double) : Bool := d.bits.toNat % signBit == 0

/-- The mantissa of a finite number, with the hidden bit of a normal one. -/
def mantissa (d : Double) : Nat :=
  if d.exponentField = 0 then d.fractionField else d.fractionField + hiddenBit

/-- The exponent of a finite number, counted from that of the least one, `2 ^ (-1074)`. -/
def scale (d : Double) : Nat := d.exponentField - 1

/-- The magnitude of a finite number as a ratio of natural numbers. -/
def ratio (d : Double) : Nat × Nat :=
  if 1074 ≤ d.scale then (d.mantissa <<< (d.scale - 1074), 1)
  else (d.mantissa, 1 <<< (1074 - d.scale))

/-! ## 2. Equality of numbers -/

/-- Numbers are equal when neither is missing and they are the same or both are zero. -/
def equal (a b : Double) : Bool :=
  !a.isNaN && !b.isNaN && (a.bits == b.bits || (a.isZero && b.isZero))

/-! ## 3. Rounding -/

/-- The sign bit and the 63 bits below it. -/
def ofSignMagnitude (negative : Bool) (magnitude : Nat) : Double :=
  ⟨UInt64.ofNat (if negative then signBit + magnitude else magnitude)⟩

/-- The 63 low bits of an infinity. -/
def infinityMagnitude : Nat := 2047 * hiddenBit

/-- Infinity, of either sign. -/
def infinity (negative : Bool) : Double := ofSignMagnitude negative infinityMagnitude

/-- Zero, of either sign. -/
def zero (negative : Bool) : Double := ofSignMagnitude negative 0

/-- The quotient rounded to the nearest natural number, a half to the even one. -/
def divNearestEven (num den : Nat) : Nat :=
  let q := num / den
  let r := num % den
  if 2 * r > den || (2 * r == den && q % 2 == 1) then q + 1 else q

/-- The quotient `num / den` as a multiple of `2 ^ (scale - 1074)`, rounded. -/
def roundAt (num den scale : Nat) : Nat :=
  if 1074 ≤ scale then divNearestEven num (den <<< (scale - 1074))
  else divNearestEven (num <<< (1074 - scale)) den

/-- The scale at which `num / den` has a mantissa of 53 bits, or the least scale if it is too
small for that. -/
def scaleOf (num den : Nat) : Nat :=
  let guess := num.log2 + 1074 - (den.log2 + 52)
  -- The guess gives 52 or 53 bits; the scale below gives one bit more.
  let short :=
    if 1074 ≤ guess then num / (den <<< (guess - 1074)) < hiddenBit
    else (num <<< (1074 - guess)) / den < hiddenBit
  if short then guess - 1 else guess

/-- The number nearest to `num / den`, of two the one with the even mantissa; infinity when that
lies beyond the finite numbers.  A mantissa that rounds up to the next power of two carries into
the exponent field, as it should. -/
def ofRatio (negative : Bool) (num den : Nat) : Double :=
  if num = 0 then zero negative
  else
    let scale := scaleOf num den
    ofSignMagnitude negative (min (scale * hiddenBit + roundAt num den scale) infinityMagnitude)

/-- The number nearest to an integer. -/
def ofInt (i : Int) : Double := ofRatio (decide (i < 0)) i.natAbs 1

/-- The product of two finite numbers' magnitudes, rounded; the sign is the first one's. -/
def mulMagnitude (a b : Double) : Double :=
  ofRatio a.isNegative (a.ratio.1 * b.ratio.1) (a.ratio.2 * b.ratio.2)

/-- The quotient of two finite numbers' magnitudes, rounded; the sign is the first one's. -/
def divMagnitude (a b : Double) : Double :=
  ofRatio a.isNegative (a.ratio.1 * b.ratio.2) (a.ratio.2 * b.ratio.1)

/-- The number with the other sign. -/
def neg (d : Double) : Double := ofSignMagnitude (!d.isNegative) (d.bits.toNat % signBit)

end Double

end MethodGuard
