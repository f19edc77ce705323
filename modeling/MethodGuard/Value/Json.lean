/-
# Values and JSON

Every value has JSON data; all JSON data has a value.  Integers that 64 bits do not hold become
floats on the way in, and a repeated key keeps its first place and its last value.  On the way out
a float that is no finite number becomes `null`.
-/
import MethodGuard.Json.Reader
import MethodGuard.Value.Basic

namespace MethodGuard

namespace Value

/-! ## 1. From values -/

mutual

/-- The JSON data of a value. -/
def toJson : Value → Json
  | .none => .null
  | .boolean b => .boolean b
  | .integer i => .integer i.toInt
  | .float d => .float d
  | .string s => .string s
  | .list items => .array (itemsToJson items)
  | .map entries => .object (entriesToJson entries)

/-- The JSON data of a list's items. -/
def itemsToJson : List Value → List Json
  | [] => []
  | item :: rest => item.toJson :: itemsToJson rest

/-- The JSON data of a map's entries. -/
def entriesToJson : List (String × Value) → List (String × Json)
  | [] => []
  | (key, value) :: rest => (key, value.toJson) :: entriesToJson rest

end

/-! ## 2. To values -/

/-- The value of an integer: itself, or the nearest float when it is too large. -/
def ofInt (n : Int) : Value :=
  if fits n then .integer (Int64.ofInt n) else .float (Double.ofInt n)

mutual

/-- The value of JSON data. -/
def ofJson : Json → Value
  | .null => .none
  | .boolean b => .boolean b
  | .integer n => ofInt n
  | .float d => .float d
  | .string s => .string s
  | .array items => .list (ofItems items)
  | .object members => .map (OrderedMap.ofList (ofMembers members)).entries

/-- The values of an array's items. -/
def ofItems : List Json → List Value
  | [] => []
  | item :: rest => ofJson item :: ofItems rest

/-- The values of an object's members, repeated keys included. -/
def ofMembers : List (String × Json) → List (String × Value)
  | [] => []
  | (key, value) :: rest => (key, ofJson value) :: ofMembers rest

end

/-- The value written in a JSON text, with maps in the order of the text. -/
def read? (text : String) : Option Value := (Json.read? text).map ofJson

/-- The value written in a JSON text, with maps in the byte order of their keys. -/
def readSorted? (text : String) : Option Value := (Json.read? text).map fun j => ofJson j.sorted

end Value

end MethodGuard
