/-
# Validation options

Two settings govern validation: how much of a container a type check looks at, and whether a
validator must declare exactly the parameters of the method it guards and no result.  A class sets
them for itself and its subclasses.  They can be read from a TOML document, whose missing keys
take the defaults and whose unknown keys do not count.
-/
import MethodGuard.Error
import MethodGuard.Signature.Json
import MethodGuard.Toml.Document

namespace MethodGuard

/-- The settings that govern validation. -/
structure ValidationOptions where
  collectionCheck : CollectionCheck
  strictValidators : Bool
  deriving DecidableEq

namespace ValidationOptions

/-- Everything is checked. -/
def strict : ValidationOptions := ⟨.allItems, true⟩

instance : Inhabited ValidationOptions := ⟨strict⟩

/-- First items only, and validators need not agree with their methods. -/
def lenient : ValidationOptions := ⟨.firstItem, false⟩

end ValidationOptions

/-! ## 1. Names and texts -/

/-- The name of a strategy in documents. -/
def CollectionCheck.name : CollectionCheck → String
  | .firstItem => "first_item"
  | .allItems => "all_items"

/-- The strategy of a name. -/
def CollectionCheck.ofName? (name : String) : Option CollectionCheck :=
  [firstItem, allItems].find? fun c => c.name == name

/-- The constructor's name. -/
def CollectionCheck.inspect : CollectionCheck → String
  | .firstItem => "FirstItem"
  | .allItems => "AllItems"

namespace ValidationOptions

/-- The JSON data of options. -/
def toJson (o : ValidationOptions) : Json :=
  .object [
    ("collection_check", .string o.collectionCheck.name),
    ("strict_validators", .boolean o.strictValidators)]

/-- The text of options with their fields. -/
def inspect (o : ValidationOptions) : String :=
  inspectRecord "ValidationOptions" [
    ("collection_check", o.collectionCheck.inspect),
    ("strict_validators", boolText o.strictValidators)] true

/-! ## 2. Reading a document -/

/-- Whether a node holds nothing. -/
def isNothing : Toml.Node → Bool
  | .array [] => true
  | .table _ [] => true
  | .tables [] => true
  | _ => false

/-- The strategy a node names, as a string or as the only key of a table that holds nothing. -/
def strategyOf? : Toml.Node → Option CollectionCheck
  | .string name => CollectionCheck.ofName? name
  | .table _ [(name, node)] => if isNothing node then CollectionCheck.ofName? name else none
  | _ => none

/-- The boolean of a node. -/
def flagOf? : Toml.Node → Option Bool
  | .boolean b => some b
  | _ => none

/-- The value of a key, or the default when the key is missing. -/
def setting? {α : Type u} (read : Toml.Node → Option α) (fallback : α) :
    Option Toml.Node → Option α
  | none => some fallback
  | some node => read node

/-- The options of a document's root table. -/
def ofTable? (root : Toml.Entries) : Option ValidationOptions :=
  match setting? strategyOf? strict.collectionCheck (root.lookup "collection_check"),
    setting? flagOf? strict.strictValidators (root.lookup "strict_validators") with
  | some collectionCheck, some strictValidators => some ⟨collectionCheck, strictValidators⟩
  | _, _ => none

/-- The options in a TOML text. -/
def ofToml (text : String) : Except OptionsError ValidationOptions :=
  match (Toml.read? text).bind ofTable? with
  | some o => .ok o
  | none => .error .parse

/-- The options in a file, given its bytes if there is such a file. -/
def ofFile : Option ByteArray → Except OptionsError ValidationOptions
  | none => .error (.file .notFound)
  | some bytes =>
    match String.fromUTF8? bytes with
    | some text => ofToml text
    | none => .error (.file .notUtf8)

end ValidationOptions

end MethodGuard
