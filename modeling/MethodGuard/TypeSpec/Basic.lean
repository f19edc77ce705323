/-
# Type descriptors

A parameter or a result may carry a `TypeSpec`, a plain description of the values it admits.
Checking a value against one walks both: lists item by item, maps entry by entry, a union by trying
its members.  A failed check says what went wrong as a `Mismatch`, a path of items and keys that
ends in the runtime type found and the descriptor expected there.

How much of a container is looked at is the strategy: all of it, or its first element only.
-/
import MethodGuard.Value.Basic
import MethodGuard.Text.Quoted

namespace MethodGuard

/-- A description of the values that a parameter or a result admits. -/
inductive TypeSpec where
  /-- Every value. -/
  | any
  /-- The absence of a value. -/
  | none
  /-- Booleans, never integers. -/
  | boolean
  /-- Integers, never booleans. -/
  | integer
  /-- Floats, and integers by widening. -/
  | float
  /-- Strings. -/
  | string
  /-- Lists whose items match. -/
  | list (element : TypeSpec)
  /-- Maps whose values match. -/
  | map (element : TypeSpec)
  /-- The absence of a value, or a value that matches. -/
  | optional (inner : TypeSpec)
  /-- Values that match one of the members. -/
  | union (members : List TypeSpec)

/-- How much of a container a check looks at. -/
inductive CollectionCheck where
  /-- The first item of a list and the first value of a map. -/
  | firstItem
  /-- Every item and every value. -/
  | allItems
  deriving DecidableEq

namespace TypeSpec

instance : Inhabited TypeSpec := ⟨.any⟩

/-! ## 1. Equality -/

mutual

/-- Whether two descriptors are the same. -/
def same : TypeSpec → TypeSpec → Bool
  | .any, .any => true
  | .none, .none => true
  | .boolean, .boolean => true
  | .integer, .integer => true
  | .float, .float => true
  | .string, .string => true
  | .list a, .list b => same a b
  | .map a, .map b => same a b
  | .optional a, .optional b => same a b
  | .union as, .union bs => sameMembers as bs
  | _, _ => false

/-- Whether two lists hold the same descriptors in the same order. -/
def sameMembers : List TypeSpec → List TypeSpec → Bool
  | [], [] => true
  | a :: as, b :: bs => same a b && sameMembers as bs
  | _, _ => false

end

mutual

theorem same_iff : (a b : TypeSpec) → (same a b = true ↔ a = b)
  | .any, b => by cases b <;> simp [same]
  | .none, b => by cases b <;> simp [same]
  | .boolean, b => by cases b <;> simp [same]
  | .integer, b => by cases b <;> simp [same]
  | .float, b => by cases b <;> simp [same]
  | .string, b => by cases b <;> simp [same]
  | .list a, b => by cases b <;> simp [same, same_iff a]
  | .map a, b => by cases b <;> simp [same, same_iff a]
  | .optional a, b => by cases b <;> simp [same, same_iff a]
  | .union as, b => by cases b <;> simp [same, sameMembers_iff as]

theorem sameMembers_iff : (as bs : List TypeSpec) → (sameMembers as bs = true ↔ as = bs)
  | [], bs => by cases bs <;> simp [sameMembers]
  | a :: as, bs => by cases bs <;> simp [sameMembers, same_iff a, sameMembers_iff as]

end

instance : DecidableEq TypeSpec := fun a b => decidable_of_iff _ (same_iff a b)

/-! ## 2. Names -/

mutual

/-- The name of a descriptor in messages. -/
def displayName : TypeSpec → String
  | .any => "Any"
  | .none => "None"
  | .boolean => "Boolean"
  | .integer => "Integer"
  | .float => "Float"
  | .string => "String"
  | .list element => "List[" ++ element.displayName ++ "]"
  | .map element => "Map[String, " ++ element.displayName ++ "]"
  | .optional inner => "Optional[" ++ inner.displayName ++ "]"
  | .union members => "Union[" ++ ", ".intercalate (displayNames members) ++ "]"

/-- The names of descriptors in a list. -/
def displayNames : List TypeSpec → List String
  | [] => []
  | t :: rest => t.displayName :: displayNames rest

end

mutual

/-- The text of a descriptor with its constructors. -/
def inspect : TypeSpec → String
  | .any => "Any"
  | .none => "None"
  | .boolean => "Boolean"
  | .integer => "Integer"
  | .float => "Float"
  | .string => "String"
  | .list element => "List(" ++ element.inspect ++ ")"
  | .map element => "Map(" ++ element.inspect ++ ")"
  | .optional inner => "Optional(" ++ inner.inspect ++ ")"
  | .union members => "Union(" ++ bracketed (inspectMembers members) ++ ")"

/-- The inspections of descriptors in a list. -/
def inspectMembers : List TypeSpec → List String
  | [] => []
  | t :: rest => t.inspect :: inspectMembers rest

end

end TypeSpec

/-! ## 3. Mismatches -/

/-- What a check found wrong, and where. -/
inductive Mismatch where
  /-- A value whose runtime type is not the one expected. -/
  | kind (found : Value.Kind) (expected : TypeSpec)
  /-- A value that matches no member of a union. -/
  | noMember (found : Value.Kind) (expected : TypeSpec)
  /-- A mismatch of a list's item. -/
  | item (index : Nat) (inner : Mismatch)
  /-- A mismatch of a map's value. -/
  | entry (key : String) (inner : Mismatch)

/-- The path to the mismatch and what was found there. -/
def Mismatch.message : Mismatch → String
  | .kind found expected => found.name ++ " is not " ++ expected.displayName
  | .noMember found expected =>
    found.name ++ " did not match any element in " ++ expected.displayName
  | .item index inner => "item " ++ toString index ++ ": " ++ inner.message
  | .entry key inner => "value of key " ++ quoted key ++ ": " ++ inner.message

/-! ## 4. The check -/

/-- The elements of a container that a strategy looks at. -/
def CollectionCheck.inspected {α : Type u} (strategy : CollectionCheck) (elements : List α) :
    List α :=
  match strategy with
  | .firstItem => elements.take 1
  | .allItems => elements

namespace TypeSpec

/-- Check items in order; the first mismatch carries its index. -/
def checkItems (check : Value → Except Mismatch Unit) (index : Nat) :
    List Value → Except Mismatch Unit
  | [] => .ok ()
  | item :: rest =>
    match check item with
    | .ok () => checkItems check (index + 1) rest
    | .error m => .error (.item index m)

/-- Check a map's values in order; the first mismatch carries its key. -/
def checkEntries (check : Value → Except Mismatch Unit) :
    List (String × Value) → Except Mismatch Unit
  | [] => .ok ()
  | (key, value) :: rest =>
    match check value with
    | .ok () => checkEntries check rest
    | .error m => .error (.entry key m)

mutual

/-- Check a value against a descriptor. -/
def check (strategy : CollectionCheck) : TypeSpec → Value → Except Mismatch Unit
  | .any, _ => .ok ()
  | .none, .none => .ok ()
  | .boolean, .boolean _ => .ok ()
  | .integer, .integer _ => .ok ()
  | .float, .float _ => .ok ()
  | .float, .integer _ => .ok ()
  | .string, .string _ => .ok ()
  | .list element, .list items =>
    checkItems (check strategy element) 0 (strategy.inspected items)
  | .map element, .map entries =>
    checkEntries (check strategy element) (strategy.inspected entries)
  | .optional _, .none => .ok ()
  | .optional inner, value => check strategy inner value
  | .union members, value =>
    if anyMatches strategy members value then .ok ()
    else .error (.noMember value.kind (.union members))
  | expected, value => .error (.kind value.kind expected)

/-- Whether a value matches one of the descriptors. -/
def anyMatches (strategy : CollectionCheck) : List TypeSpec → Value → Bool
  | [], _ => false
  | t :: rest, value => (check strategy t value).isOk || anyMatches strategy rest value

end

/-- Whether a value matches a descriptor, looking at everything. -/
def accepts (spec : TypeSpec) (value : Value) : Bool := (spec.check .allItems value).isOk

end TypeSpec

end MethodGuard
