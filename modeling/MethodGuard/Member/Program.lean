/-
# Method bodies

A body is given its bound arguments and then acts on the object it was called on: it looks at the
object, assigns fields, leaves notes, calls other methods of the same object, and finishes with a
result or an error.  `Program` is the tree of what a body does next, with a branch for everything
it may be told.  A body is therefore any function of what it sees, and it can see nothing but the
object; running one (`Program.run`, in the module on calls) is where effects happen.
-/
import MethodGuard.Signature.Binding

namespace MethodGuard

/-- What a body sees of its object. -/
structure View where
  className : String
  /-- A field of the object, or else an attribute of its class. -/
  get? : String → Option Value

/-- What a body does next. -/
inductive Program where
  /-- Finish with a result or an error. -/
  | finish (result : Except MethodError Value)
  /-- Look at the object. -/
  | inspect (next : View → Program)
  /-- Assign a field of the object. -/
  | assign (field : String) (value : Value) (next : Program)
  /-- Leave a note. -/
  | note (text : String) (next : Program)
  /-- Call a method of the object. -/
  | call (method : String) (arguments : Arguments) (next : Except CallError Value → Program)

namespace Program

/-- Finish with a result. -/
def succeed (value : Value) : Program := .finish (.ok value)

/-- Finish with an error. -/
def fail (error : MethodError) : Program := .finish (.error error)

end Program

/-- A body, given its bound arguments. -/
abbrev Body := BoundArguments → Program

end MethodGuard
