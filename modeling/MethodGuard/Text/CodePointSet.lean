/-
# Sets of code points

A property of characters is a set of code points that comes in long runs.  `CodePointSet` lists,
in ascending order, the code points at which membership CHANGES: the first is the first member,
the second the first non-member after it, and so on.
-/

namespace MethodGuard

/-- The code points at which membership changes, in ascending order. -/
structure CodePointSet where
  boundaries : List Nat

namespace CodePointSet

/-- Whether `point` lies past an odd number of the boundaries. -/
def member : List Nat → Nat → Bool
  | [], _ => false
  | b :: rest, point => if point < b then false else !member rest point

/-- Whether a character belongs to the set. -/
def contains (s : CodePointSet) (c : Char) : Bool := member s.boundaries c.toNat

/-- Below the first boundary nothing belongs to a set. -/
theorem member_of_lt {b : Nat} {rest : List Nat} {point : Nat} (h : point < b) :
    member (b :: rest) point = false := by
  simp [member, h]

/-- Each boundary passed turns membership over. -/
theorem member_of_le {b : Nat} {rest : List Nat} {point : Nat} (h : b ≤ point) :
    member (b :: rest) point = !member rest point := by
  have : ¬ point < b := by omega
  simp [member, this]

end CodePointSet

end MethodGuard
