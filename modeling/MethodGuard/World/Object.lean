/-
# Objects

An object is an instance of a class: an identity, the class, and the fields assigned so far.
Reading a name looks at the fields first and at the class's attributes after that.
-/
import MethodGuard.Call.Basic

namespace MethodGuard

/-- The identity of an object: its number in the order of construction. -/
abbrev ObjectId := Nat

/-- An instance of a class. -/
structure Object where
  id : ObjectId
  cls : Class
  fields : Fields
  /-- Whether the class had passed its structural check when the object was made. -/
  selfValidated : Bool

/-- The first eight hexadecimal digits of an identity. -/
def ObjectId.short (id : ObjectId) : String :=
  String.ofList (Hexadecimal.padded 8 (id % UInt32.size))

namespace Object

/-- A field of the object, or else an attribute of its class. -/
def get? (o : Object) (name : String) : Option Value := (o.cls.view o.fields).get? name

/-- The object with a field assigned. -/
def set (o : Object) (name : String) (value : Value) : Object :=
  { o with fields := o.fields.insert name value }

/-- Whether the object belongs to a class or to one that derives from it. -/
def isInstanceOf (o : Object) (c : Class) : Bool := o.cls.isSubclassOf c.toShape

/-- The object after a run on its fields, beside the result and the events. -/
def perform {α : Type u} (o : Object) (run : Run α) : Option (Traced (α × Object)) :=
  (run o.fields).map fun done => ⟨(done.value, { o with fields := done.fields }), done.events⟩

/-- Call a method of the object. -/
def call (o : Object) (name : String) (a : Arguments) :
    Option (Traced (Except CallError Value × Object)) :=
  o.perform (o.cls.call name a)

/-! ## Texts -/

/-- The text of an object, with its identity written as `id`. -/
def displayWith (o : Object) (id : String) : String := "<" ++ o.cls.name ++ " object " ++ id ++ ">"

/-- The text of an object. -/
def display (o : Object) : String := o.displayWith (ObjectId.short o.id)

/-- The text of an object with its fields, its identity written as `id`. -/
def inspectWith (o : Object) (id : String) : String :=
  inspectRecord "Object" [
    ("id", "ObjectId(" ++ id ++ ")"),
    ("class", quoted o.cls.name),
    ("fields", braced (Value.inspectEntries o.fields.entries)),
    ("self_validated", boolText o.selfValidated)] true

end Object

end MethodGuard
