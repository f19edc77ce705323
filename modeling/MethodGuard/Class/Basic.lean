/-
# Built classes

A class is known by its identity, not by its name: two classes may share a name.  What its own
statement says is its `Declaration`.  Building adds what follows from its bases: the order of its
ancestors, the member that every visible name stands for, the names of its validated, required and
abstract methods, the initializer and options in effect, and a proxy around every validated
method.  All of that is the class's `Shape`, which structural checks look at; the checks that a
class has inherited or declared stand beside it.
-/
import MethodGuard.Event
import MethodGuard.Member.Basic
import MethodGuard.Options

namespace MethodGuard

/-- The identity of a class: its number in the order of building. -/
abbrev ClassId := Nat

/-! ## 1. What a class statement says -/

/-- The own part of a class. -/
structure Declaration where
  id : ClassId
  name : String
  members : OrderedMap Member
  initializer : Option Method
  options : Option ValidationOptions

/-- A member as a class sees it, with the name of the class that defines it. -/
structure Resolved where
  member : Member
  owner : String

/-- The text of a resolved member with its fields. -/
def Resolved.inspect (r : Resolved) : String :=
  inspectRecord "ResolvedMember" [("member", r.member.inspect), ("owner", quoted r.owner)] true

/-! ## 2. Validated methods -/

/-- A validator with the method it is. -/
structure Validator where
  qualname : String
  method : Method

/-- A marked method with all that its calls pass through. -/
structure ValidatedMethod where
  className : String
  qualname : String
  method : Method
  prerun : Bool
  validator : Option Validator
  typed : Bool
  collectionCheck : CollectionCheck

/-! ## 3. Classes -/

/-- All of a class but its structural checks. -/
structure Shape where
  own : Declaration
  /-- The direct bases in the order they were listed. -/
  bases : List Declaration
  /-- The ancestors in resolution order, without the class itself. -/
  ancestors : List Declaration
  /-- What every visible name stands for, own names first. -/
  resolved : OrderedMap Resolved
  /-- Names marked for a validator, here or in an ancestor. -/
  prerun : NameSet
  /-- Names marked for type checks, here or in an ancestor. -/
  typed : NameSet
  /-- Names that must resolve to methods. -/
  required : List String
  /-- Names that resolve to abstract methods. -/
  abstractNames : List String
  /-- The initializer in effect. -/
  initializer : Option Method
  /-- The options in effect. -/
  options : ValidationOptions
  /-- The proxies of the validated methods. -/
  dispatch : OrderedMap ValidatedMethod

namespace Shape

/-- The identity of the class. -/
def id (s : Shape) : ClassId := s.own.id

/-- The qualified name of the class. -/
def name (s : Shape) : String := s.own.name

/-- What a name stands for. -/
def resolve? (s : Shape) (name : String) : Option Resolved := s.resolved.find? name

/-- The member a name stands for. -/
def member? (s : Shape) (name : String) : Option Member := (s.resolve? name).map (·.member)

/-- The value of a class attribute. -/
def attribute? (s : Shape) (name : String) : Option Value :=
  match s.member? name with
  | some (.attribute value) => some value
  | _ => none

/-- Whether abstract methods keep the class from having instances. -/
def isAbstract (s : Shape) : Bool := !s.abstractNames.isEmpty

/-- The proxy of a validated method. -/
def validatedMethod? (s : Shape) (name : String) : Option ValidatedMethod := s.dispatch.find? name

/-- The class and its ancestors in resolution order. -/
def lineage (s : Shape) : List Declaration := s.own :: s.ancestors

/-- Whether the class is another class or derives from it. -/
def isSubclassOf (s other : Shape) : Bool := s.lineage.any fun d => d.id == other.id

end Shape

/-- A structural check: its name, and the problems it finds in a class.  Finding problems without
naming one is possible, and is not the same answer as finding none. -/
structure Check where
  name : String
  run : Shape → Traced (Except (List StructureError) Unit)

/-- A structural check that belongs to the statement of a class.  Its identity is where it was
declared. -/
structure Stage where
  declaredBy : ClassId
  position : Nat
  check : Check

/-- What tells stages apart. -/
def Stage.key (s : Stage) : ClassId × Nat := (s.declaredBy, s.position)

/-- A built class. -/
structure Class extends Shape where
  /-- Inherited checks first, own ones last. -/
  stages : List Stage

/-! ## 4. Texts -/

namespace Class

/-- The text of a class. -/
def display (c : Class) : String := "<class '" ++ c.name ++ "'>"

/-- The text of a class with the fields worth inspecting. -/
def inspect (c : Class) : String :=
  inspectRecord "Class" [
    ("name", quoted c.name),
    ("bases", quotedList (c.bases.map (·.name))),
    ("prerun_methods", quotedSet c.prerun.names),
    ("type_methods", quotedSet c.typed.names),
    ("required_methods", quotedSet c.required),
    ("abstract_methods", quotedList c.abstractNames),
    ("options", c.options.inspect),
    ("stages", quotedList (c.stages.map (·.check.name)))] false

end Class

end MethodGuard
