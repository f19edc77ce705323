/-
# Log records

Everything the library does that is worth a record is an `Event`.  Operations that emit events
return them beside their result (`Traced`), in the order they were emitted.  The text of each kind
of record is in `Event.text`.
-/
import MethodGuard.NameSet
import MethodGuard.Text.Quoted

namespace MethodGuard

/-- Something worth a record. -/
inductive Event where
  /-- A class was built, with these validated and abstract methods. -/
  | built (className : String) (prerun typed : NameSet) (abstractNames : List String)
  /-- A class was registered under its name. -/
  | registering (className : String)
  /-- A marked method is being called. -/
  | calling (method : String)
  /-- A class passed its structural check. -/
  | methodsOk (className : String)
  /-- A validator accepted a call's inputs. -/
  | inputsOk (method validator : String)
  /-- The arguments of a call have the declared types. -/
  | argumentTypesOk (method : String)
  /-- The result of a call has the declared type. -/
  | returnTypeOk (method : String)
  /-- A scripted structural check was run on a class. -/
  | checkRan (check className : String)
  /-- A method body left a note. -/
  | note (text : String)

/-- The text of a record, with its level or its source in front. -/
def Event.text : Event → String
  | .built className prerun typed abstractNames =>
    "TRACE Built class '" ++ className ++ "' (prerun: " ++ quotedSet prerun.names ++ ", type: "
      ++ quotedSet typed.names ++ ", abstract: " ++ quotedList abstractNames ++ ")"
  | .registering className => "TRACE Registering class '" ++ className ++ "'"
  | .calling method => "TRACE Calling '" ++ method ++ "' through its validating proxy"
  | .methodsOk className => "DEBUG Methods of '" ++ className ++ "' are ok"
  | .inputsOk method validator =>
    "DEBUG Inputs for '" ++ method ++ "' are ok (validated using '" ++ validator ++ "')"
  | .argumentTypesOk method => "DEBUG Argument types for '" ++ method ++ "' are ok"
  | .returnTypeOk method => "DEBUG Return type of '" ++ method ++ "' is ok"
  | .checkRan check className => "STAGE " ++ check ++ " " ++ className
  | .note text => "BODY " ++ text

/-- A result, and the events on the way to it. -/
structure Traced (α : Type u) where
  value : α
  events : List Event

namespace Traced

variable {α : Type u} {β : Type v}

/-- A result without events. -/
def pure (value : α) : Traced α := ⟨value, []⟩

/-- The same result, with events before its own. -/
def after (events : List Event) (t : Traced α) : Traced α := ⟨t.value, events ++ t.events⟩

/-- The result changed, the events kept. -/
def map (f : α → β) (t : Traced α) : Traced β := ⟨f t.value, t.events⟩

end Traced

end MethodGuard
