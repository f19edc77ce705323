/-
# Checking arguments and results against annotations

The arguments a caller supplied are checked in the order of declaration against the annotations of
their parameters; defaults are not checked, and neither is anything without an annotation.  The
first mismatch is reported with the parameter and the type it declares.
-/
import MethodGuard.Signature.Binding

namespace MethodGuard

/-- Check the supplied values of a call in order. -/
def checkSupplied (method : String) (s : Signature) (strategy : CollectionCheck) :
    List (String × Value) → Except CallError Unit
  | [] => .ok ()
  | (name, value) :: rest =>
    match (s.find? name).bind (·.declared) with
    | none => checkSupplied method s strategy rest
    | some expected =>
      match expected.check strategy value with
      | .ok () => checkSupplied method s strategy rest
      | .error m => .error (.argumentType method name expected m.message)

/-- Check the arguments that the caller of `method` supplied. -/
def checkArguments (method : String) (s : Signature) (bound : BoundArguments)
    (strategy : CollectionCheck) : Except CallError Unit :=
  checkSupplied method s strategy bound.supplied

/-- Check the result of `method`. -/
def checkReturn (method : String) (s : Signature) (value : Value) (strategy : CollectionCheck) :
    Except CallError Unit :=
  match s.returns with
  | none => .ok ()
  | some expected =>
    match expected.check strategy value with
    | .ok () => .ok ()
    | .error m => .error (.returnType method expected m.message)

end MethodGuard
