/-
# Members of classes

A class body defines methods, abstract methods and plain attributes.  Methods of both sorts carry
markers: `prerun` asks for a validator to be run before every call, `type` for the arguments and
the result to be checked against the signature.
-/
import MethodGuard.Json.Basic
import MethodGuard.Member.Program

namespace MethodGuard

/-! ## 1. Markers -/

/-- What a method is marked for. -/
inductive Marker where
  | prerun
  | type
  deriving DecidableEq

/-- The name of a marker. -/
def Marker.name : Marker → String
  | .prerun => "prerun"
  | .type => "type"

/-- The markers of a method. -/
structure Markers where
  prerun : Bool
  typed : Bool
  deriving DecidableEq

namespace Markers

/-- No markers. -/
def none : Markers := ⟨false, false⟩

instance : Inhabited Markers := ⟨none⟩

/-- The markers with one more. -/
def insert (m : Markers) : Marker → Markers
  | .prerun => { m with prerun := true }
  | .type => { m with typed := true }

/-- The markers with those of a list. -/
def insertAll (m : Markers) (markers : List Marker) : Markers := markers.foldl insert m

/-- Whether a marker is set. -/
def contains (m : Markers) : Marker → Bool
  | .prerun => m.prerun
  | .type => m.typed

/-- Whether any marker is set. -/
def any (m : Markers) : Bool := m.prerun || m.typed

/-- The JSON data of markers. -/
def toJson (m : Markers) : Json :=
  .object [("prerun", .boolean m.prerun), ("typed", .boolean m.typed)]

/-- The text of markers with their fields. -/
def inspect (m : Markers) : String :=
  inspectRecord "Markers" [("prerun", boolText m.prerun), ("typed", boolText m.typed)] true

end Markers

/-- The name of the method that validates a method's inputs. -/
def validatorName (method : String) : String := "validate_" ++ method

/-! ## 2. Methods -/

/-- A method with a body. -/
structure Method where
  name : String
  signature : Signature
  markers : Markers
  body : Body

/-- A method that subclasses have to write. -/
structure AbstractMethod where
  name : String
  signature : Signature
  markers : Markers

namespace Method

/-- The method with further markers. -/
def mark (m : Method) (markers : List Marker) : Method :=
  { m with markers := m.markers.insertAll markers }

/-- The text of a method with its fields, apart from its body. -/
def inspect (m : Method) : String :=
  inspectRecord "Method" [
    ("name", quoted m.name),
    ("signature", m.signature.inspect),
    ("markers", m.markers.inspect)] false

end Method

namespace AbstractMethod

/-- The method with further markers. -/
def mark (m : AbstractMethod) (markers : List Marker) : AbstractMethod :=
  { m with markers := m.markers.insertAll markers }

/-- The text of an abstract method with its fields. -/
def inspect (m : AbstractMethod) : String :=
  inspectRecord "AbstractMethod" [
    ("name", quoted m.name),
    ("signature", m.signature.inspect),
    ("markers", m.markers.inspect)] true

end AbstractMethod

/-! ## 3. Members -/

/-- What a class body defines under a name. -/
inductive Member where
  | method (m : Method)
  | abstract (m : AbstractMethod)
  | attribute (value : Value)

namespace Member

/-- Whether the member can be called. -/
def isCallable : Member → Bool
  | .method _ => true
  | _ => false

/-- Whether the member is an abstract method. -/
def isAbstract : Member → Bool
  | .abstract _ => true
  | _ => false

/-- The markers of the member; an attribute has none. -/
def markers : Member → Markers
  | .method m => m.markers
  | .abstract m => m.markers
  | .attribute _ => .none

/-- The method, if the member is one with a body. -/
def method? : Member → Option Method
  | .method m => some m
  | _ => none

/-- The name of the member's sort. -/
def kindName : Member → String
  | .method _ => "method"
  | .abstract _ => "abstract method"
  | .attribute _ => "attribute"

/-- The text of a member with its constructor. -/
def inspect : Member → String
  | .method m => "Method(" ++ m.inspect ++ ")"
  | .abstract m => "Abstract(" ++ m.inspect ++ ")"
  | .attribute value => "Attribute(" ++ value.inspect ++ ")"

end Member

end MethodGuard
