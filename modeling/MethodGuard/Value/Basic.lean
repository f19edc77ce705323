/-
# Values

Methods of validated classes exchange dynamically typed values: nothing, booleans, 64-bit
integers, binary64 numbers, strings, lists, and maps that keep the order of their keys.  A map
inside a value is its list of entries; that its keys do not repeat is what every builder of maps
sees to, and not part of the type.

Two comparisons of values are different things.  `Value.equal` is the program's own: a missing
number differs from itself, the two zeros are equal, an integer is never a float, and maps are
compared by look-up, so that the order of their entries does not count.
-/
import MethodGuard.OrderedMap
import MethodGuard.Number.Double

namespace MethodGuard

/-- A dynamically typed value. -/
inductive Value where
  | none
  | boolean (b : Bool)
  | integer (i : Int64)
  | float (d : Double)
  | string (s : String)
  | list (items : List Value)
  | map (entries : List (String × Value))

namespace Value

instance : Inhabited Value := ⟨.none⟩

/-! ## 1. Kinds and views -/

/-- The runtime type of a value. -/
inductive Kind where
  | none
  | boolean
  | integer
  | float
  | string
  | list
  | map
  deriving DecidableEq

/-- The name diagnostics use for a runtime type. -/
def Kind.name : Kind → String
  | .none => "None"
  | .boolean => "Boolean"
  | .integer => "Integer"
  | .float => "Float"
  | .string => "String"
  | .list => "List"
  | .map => "Map"

/-- The runtime type of a value. -/
def kind : Value → Kind
  | .none => .none
  | .boolean _ => .boolean
  | .integer _ => .integer
  | .float _ => .float
  | .string _ => .string
  | .list _ => .list
  | .map _ => .map

/-- Whether 64 bits hold an integer. -/
def fits (n : Int) : Bool :=
  decide (Int64.minValue.toInt ≤ n) && decide (n ≤ Int64.maxValue.toInt)

/-- Whether the value is the absence of one. -/
def isNone : Value → Bool
  | .none => true
  | _ => false

/-- The boolean of a boolean. -/
def boolean? : Value → Option Bool
  | .boolean b => some b
  | _ => Option.none

/-- The integer of an integer. -/
def integer? : Value → Option Int64
  | .integer i => some i
  | _ => Option.none

/-- The number of a float, or the float nearest to an integer. -/
def float? : Value → Option Double
  | .float d => some d
  | .integer i => some (Double.ofInt i.toInt)
  | _ => Option.none

/-- The string of a string. -/
def string? : Value → Option String
  | .string s => some s
  | _ => Option.none

/-- The items of a list. -/
def list? : Value → Option (List Value)
  | .list items => some items
  | _ => Option.none

/-- The entries of a map. -/
def map? : Value → Option (List (String × Value))
  | .map entries => some entries
  | _ => Option.none

/-! ## 2. Equality -/

mutual

/-- The program's equality of values. -/
def equal : Value → Value → Bool
  | .none, .none => true
  | .boolean a, .boolean b => a == b
  | .integer a, .integer b => a == b
  | .float a, .float b => a.equal b
  | .string a, .string b => a == b
  | .list as, .list bs => equalItems as bs
  | .map as, .map bs => as.length == bs.length && entriesWithin as bs
  | _, _ => false

/-- Lists are equal item by item. -/
def equalItems : List Value → List Value → Bool
  | [], [] => true
  | a :: as, b :: bs => equal a b && equalItems as bs
  | _, _ => false

/-- Whether every entry of the first map has an equal value under its key in the second. -/
def entriesWithin : List (String × Value) → List (String × Value) → Bool
  | [], _ => true
  | (key, a) :: rest, bs =>
    (match bs.lookup key with
      | some b => equal a b
      | Option.none => false) && entriesWithin rest bs

end

/-- Optional values are equal when both are absent or both present and equal. -/
def equalOption : Option Value → Option Value → Bool
  | Option.none, Option.none => true
  | some a, some b => a.equal b
  | _, _ => false

end Value

end MethodGuard
