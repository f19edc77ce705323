/-
# The class registry

Classes are registered under their names.  Registering a name again replaces the class in its
place; unregistering one takes it out and keeps the order of the others.
-/
import MethodGuard.Class.Basic
import MethodGuard.Text.Lowercase

namespace MethodGuard

/-- Registered classes by name, in the order the names were registered. -/
structure Registry where
  classes : OrderedMap Class

namespace Registry

/-- No classes. -/
def empty : Registry := ⟨.empty⟩

instance : Inhabited Registry := ⟨empty⟩

/-- The registry with a class under its name. -/
def register (r : Registry) (c : Class) : Registry := ⟨r.classes.insert c.name c⟩

/-- The registry without a name. -/
def unregister (r : Registry) (name : String) : Registry := ⟨r.classes.erase name⟩

/-- The class of a name. -/
def find? (r : Registry) (name : String) : Option Class := r.classes.find? name

/-- Whether a name is registered. -/
def contains (r : Registry) (name : String) : Bool := r.classes.contains name

/-- The registered names in order. -/
def names (r : Registry) : List String := r.classes.keys

/-- The registered classes in order. -/
def toList (r : Registry) : List Class := r.classes.values

/-- The number of registered names. -/
def size (r : Registry) : Nat := r.classes.size

/-- Whether nothing is registered. -/
def isEmpty (r : Registry) : Bool := r.classes.isEmpty

/-- The names that hold the query somewhere, upper and lower case being one. -/
def search (r : Registry) (query : String) : List String :=
  let part := (lowercase query).toList
  r.names.filter fun name => occursIn part (lowercase name).toList

/-- The registered classes that derive from the class of a name, itself not included. -/
def subclassesOf (r : Registry) (name : String) : List Class :=
  match r.find? name with
  | none => []
  | some base => r.toList.filter fun c => !(c.id == base.id) && c.isSubclassOf base.toShape

end Registry

end MethodGuard
