/-
# Records in JSON

A record is written as an object.  Members whose names it does not know are passed over, whatever
they hold; a member it knows may stand there once.
-/
import MethodGuard.Json.Reader

namespace MethodGuard

namespace Record

/-- The known members in the order of the text, added to those found so far. -/
def members? (known : List String) (found : List (String × Written)) :
    List (List Piece × Written) → Option (List (String × Written))
  | [] => some found
  | (pieces, value) :: rest =>
    match Written.text? pieces with
    | none => none
    | some key =>
      if known.contains key then
        if (found.lookup key).isSome then none
        else members? known (found ++ [(key, value)]) rest
      else members? known found rest

/-- The optional value of a member that may be missing or `null`. -/
def optional? {α : Type u} (read : Written → Option α) : Option Written → Option (Option α)
  | none => some none
  | some .null => some none
  | some w => (read w).map some

/-- The one among several names that is written as a string, or as the only key of an object that
holds nothing.  Inside data that has been read before, an empty object counts as nothing too. -/
def name? {α : Type u} (named : String → Option α) (depth : Nat) (buffered : Bool) :
    Written → Option α
  | .string pieces => (Written.text? pieces).bind named
  | .object [(pieces, .null)] => if depth = 0 then none else (Written.text? pieces).bind named
  | .object [(pieces, .object [])] =>
    if buffered then (Written.text? pieces).bind named else none
  | _ => none

/-- The one among several names, given in order, that is written as a string.  Inside data that
has been read before, its place among them will do too. -/
def nameOrPlace? {α : Type u} (names : List (String × α)) (buffered : Bool) : Written → Option α
  | .string pieces => (Written.text? pieces).bind fun name => names.lookup name
  | .number n =>
    match buffered, n.meaning? with
    | true, some (.integer (.ofNat place)) => names[place]?.map Prod.snd
    | _, _ => none
  | _ => none

end Record

end MethodGuard
