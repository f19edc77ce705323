/-
# Hexadecimal digits

Escapes in texts, numbers in documents and identities of objects are written in base sixteen.
Digits are written in lower case and read in either.
-/

namespace MethodGuard

namespace Hexadecimal

/-- The digit of a number below sixteen. -/
def digit (n : Nat) : Char := if n < 10 then Char.ofNat (48 + n) else Char.ofNat (87 + n)

/-- The value of a digit. -/
def value? (c : Char) : Option Nat :=
  if '0' ≤ c ∧ c ≤ '9' then some (c.toNat - 48)
  else if 'a' ≤ c ∧ c ≤ 'f' then some (c.toNat - 87)
  else if 'A' ≤ c ∧ c ≤ 'F' then some (c.toNat - 55)
  else none

/-- A digit is read back as the number it was written for. -/
theorem value?_digit : ∀ n < 16, value? (digit n) = some n := by decide

/-- The number that digits stand for, the first one counting most. -/
def number? (digits : List Char) : Option Nat :=
  (digits.mapM value?).map fun values => values.foldl (fun n d => n * 16 + d) 0

/-- The digits of a number, without leading zeros. -/
def digits (n : Nat) : List Char := Nat.toDigits 16 n

/-- The digits of a number, with leading zeros up to a width. -/
def padded (width n : Nat) : List Char :=
  List.replicate (width - (digits n).length) '0' ++ digits n

end Hexadecimal

end MethodGuard
