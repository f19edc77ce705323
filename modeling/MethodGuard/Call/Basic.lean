/-
# Calling a method by name

A marked name is called through its proxy.  Any other name is looked up: a method is bound and
run, and anything else is an error that says what was found.
-/
import MethodGuard.Call.Validated

namespace MethodGuard

namespace Shape

/-- The qualified name of a method, as seen from the class. -/
def qualname (s : Shape) (name : String) : String := s.name ++ "." ++ name

/-- A call of a name without proxy. -/
def callUnmarked (s : Shape) (nested : Caller) (name : String) (a : Arguments) :
    Run (Except CallError Value) :=
  match s.member? name with
  | some (.method m) =>
    (Run.ofExcept (m.bindAs (s.qualname name) a)).andThen fun bound => m.perform s nested bound
  | some (.abstract _) =>
    Run.ofExcept (.error (.raised (.notImplemented ("'" ++ s.qualname name ++ "' is abstract"))))
  | some (.attribute _) => Run.ofExcept (.error (.notCallable s.name name))
  | none => Run.ofExcept (.error (.unknownMethod s.name name))

/-- A call whose body makes its own calls through `nested`. -/
def callWith (s : Shape) (nested : Caller) (name : String) (a : Arguments) :
    Run (Except CallError Value) :=
  match s.validatedMethod? name with
  | some p => p.call s nested a
  | none => s.callUnmarked nested name a

/-- A call that has room for calls nested `depth` deep, itself included. -/
def callAt (s : Shape) : (depth : Nat) → Caller
  | 0 => fun _ _ _ => none
  | depth + 1 => s.callWith (s.callAt depth)

/-- How deep calls may nest. -/
def callDepth : Nat := 1000

/-- A call of a method of an object of the class. -/
def call (s : Shape) : Caller := s.callAt callDepth

end Shape

end MethodGuard
