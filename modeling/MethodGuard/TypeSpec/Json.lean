/-
# Type descriptors in JSON

A descriptor is written as a record of its `kind` and, where it has one, its `inner` part.  On the
way in the two members may come in either order, and an array of the two will do.  When the inner
part comes first it is read in full before its kind is known, so that it has to have a meaning
even where a kind would have passed over some of it.

A record's kind is a name, written as names in records are.  An array's kind is a string; inside a
part that has been read before it may also be the number of the kind, counted from zero.
-/
import MethodGuard.Json.Record
import MethodGuard.TypeSpec.Basic

namespace MethodGuard

namespace TypeSpec

/-! ## 1. Kinds -/

/-- The ten kinds of descriptors. -/
inductive Tag where
  | any
  | none
  | boolean
  | integer
  | float
  | string
  | list
  | map
  | optional
  | union
  deriving DecidableEq

/-- The name of a kind. -/
def Tag.name : Tag → String
  | .any => "any"
  | .none => "none"
  | .boolean => "boolean"
  | .integer => "integer"
  | .float => "float"
  | .string => "string"
  | .list => "list"
  | .map => "map"
  | .optional => "optional"
  | .union => "union"

/-- Every kind. -/
def Tag.all : List Tag :=
  [.any, .none, .boolean, .integer, .float, .string, .list, .map, .optional, .union]

/-- Every kind under its name. -/
def Tag.named : List (String × Tag) := Tag.all.map fun t => (t.name, t)

/-- The kind of a name. -/
def Tag.ofName? (name : String) : Option Tag := Tag.named.lookup name

/-! ## 2. Writing -/

/-- The record of a kind without an inner part. -/
def plainJson (tag : Tag) : Json := .object [("kind", .string tag.name)]

/-- The record of a kind with an inner part. -/
def innerJson (tag : Tag) (inner : Json) : Json :=
  .object [("kind", .string tag.name), ("inner", inner)]

mutual

/-- The JSON data of a descriptor. -/
def toJson : TypeSpec → Json
  | .any => plainJson .any
  | .none => plainJson .none
  | .boolean => plainJson .boolean
  | .integer => plainJson .integer
  | .float => plainJson .float
  | .string => plainJson .string
  | .list element => innerJson .list element.toJson
  | .map element => innerJson .map element.toJson
  | .optional inner => innerJson .optional inner.toJson
  | .union members => innerJson .union (.array (membersToJson members))

/-- The JSON data of the members of a union. -/
def membersToJson : List TypeSpec → List Json
  | [] => []
  | t :: rest => t.toJson :: membersToJson rest

end

/-! ## 3. Reading -/

/-- The descriptor of a kind that needs no inner part. -/
def ofTag? : Tag → Option TypeSpec
  | .any => some .any
  | .none => some .none
  | .boolean => some .boolean
  | .integer => some .integer
  | .float => some .float
  | .string => some .string
  | _ => Option.none

/-- The descriptor of a kind with an inner part, which must be `null` for a kind that has none. -/
def ofInner? (read : Written → Option TypeSpec) (readMembers : Written → Option (List TypeSpec)) :
    Tag → Written → Option TypeSpec
  | .list, inner => (read inner).map .list
  | .map, inner => (read inner).map .map
  | .optional, inner => (read inner).map .optional
  | .union, inner => (readMembers inner).map .union
  | tag, .null => ofTag? tag
  | _, _ => Option.none

mutual

/-- The descriptor written in a JSON text, when at most `depth` containers may nest.  Data that
has been read before is `buffered`. -/
def ofWritten? : (depth : Nat) → (buffered : Bool) → Written → Option TypeSpec
  | depth + 1, buffered, .array [kind, inner] =>
    (Record.nameOrPlace? Tag.named buffered kind).bind fun tag =>
      ofInner? (fun w => ofWritten? depth buffered w) (fun w => membersOfWritten? depth buffered w)
        tag inner
  | depth + 1, buffered, .object members =>
    match Record.members? ["kind", "inner"] [] members with
    | some [(first, a)] =>
      if first = "kind" then (Record.name? Tag.ofName? depth buffered a).bind ofTag?
      else Option.none
    | some [(first, a), (_, b)] =>
      if first = "kind" then
        (Record.name? Tag.ofName? depth buffered a).bind fun tag =>
          ofInner? (fun w => ofWritten? depth buffered w)
            (fun w => membersOfWritten? depth buffered w) tag b
      else if buffered || (a.meaning? depth).isSome then
        (Record.name? Tag.ofName? depth buffered b).bind fun tag =>
          ofInner? (fun w => ofWritten? depth true w) (fun w => membersOfWritten? depth true w) tag a
      else Option.none
    | _ => Option.none
  | _, _, _ => Option.none

/-- The members of a union written in an array. -/
def membersOfWritten? : (depth : Nat) → (buffered : Bool) → Written → Option (List TypeSpec)
  | depth + 1, buffered, .array items => items.mapM fun item => ofWritten? depth buffered item
  | _, _, _ => Option.none

end

/-- The descriptor written in a JSON text. -/
def read? (text : String) : Option TypeSpec :=
  (Written.read? text.toList).bind (ofWritten? Written.depthLimit false)

end TypeSpec

end MethodGuard
