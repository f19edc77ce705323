/-
# Running bodies on an object

What a call does is a function of the object's fields: it gives a value, the fields as it leaves
them, and the events on the way (`Outcome`).  A call may call other methods of the same object, and
these others again; how deep that may go is bounded, and `none` is the answer when the bound is
not enough.  A body makes nested calls through a `Caller` that it is handed, so that running one
body needs no recursion over calls.
-/
import MethodGuard.Class.Basic

namespace MethodGuard

/-- The fields of an object, in the order of first assignment. -/
abbrev Fields := OrderedMap Value

/-- What came of a run. -/
structure Outcome (α : Type u) where
  value : α
  fields : Fields
  events : List Event

/-- Something that acts on an object's fields; `none` when nested calls go too deep. -/
abbrev Run (α : Type u) := Fields → Option (Outcome α)

namespace Run

variable {α : Type u} {β : Type v} {ε : Type w}

/-! ## 1. Putting runs together -/

/-- Give a value and do nothing. -/
def pure (value : α) : Run α := fun fields => some ⟨value, fields, []⟩

/-- Emit an event. -/
def log (event : Event) (value : α) : Run α := fun fields => some ⟨value, fields, [event]⟩

/-- One run after the other; the events of the first come first. -/
def bind (first : Run α) (next : α → Run β) : Run β := fun fields =>
  match first fields with
  | none => none
  | some o =>
    match next o.value o.fields with
    | none => none
    | some o' => some ⟨o'.value, o'.fields, o.events ++ o'.events⟩

/-- Go on only if the first run gave no error. -/
def andThen (first : Run (Except ε α)) (next : α → Run (Except ε β)) : Run (Except ε β) :=
  first.bind fun result =>
    match result with
    | .ok a => next a
    | .error e => pure (.error e)

/-- Something decided without acting. -/
def ofExcept (result : Except ε α) : Run (Except ε α) := pure result

end Run

/-! ## 2. Running a body -/

/-- A call of a method of the object at hand. -/
abbrev Caller := String → Arguments → Run (Except CallError Value)

/-- What a body sees of an object with these fields. -/
def Shape.view (s : Shape) (fields : Fields) : View :=
  { className := s.name
    get? := fun name => (fields.find? name).orElse fun _ => s.attribute? name }

/-- Do what a body does. -/
def Program.run (s : Shape) (nested : Caller) : Program → Run (Except MethodError Value)
  | .finish result => Run.pure result
  | .inspect next => fun fields => (next (s.view fields)).run s nested fields
  | .assign field value next => fun fields => next.run s nested (fields.insert field value)
  | .note text next => (Run.log (.note text) ()).bind fun _ => next.run s nested
  | .call method arguments next =>
    (nested method arguments).bind fun result => (next result).run s nested

/-- Run a method's body on bound arguments. -/
def Method.invoke (m : Method) (s : Shape) (nested : Caller) (bound : BoundArguments) :
    Run (Except MethodError Value) := (m.body bound).run s nested

/-- Run a method's body on bound arguments; what it raises is an error of the call. -/
def Method.perform (m : Method) (s : Shape) (nested : Caller) (bound : BoundArguments) :
    Run (Except CallError Value) :=
  (m.invoke s nested bound).bind fun result => Run.pure (result.mapError .raised)

/-- Bind a call's arguments; a refusal is reported under the method's qualified name. -/
def Method.bindAs (m : Method) (qualname : String) (a : Arguments) :
    Except CallError BoundArguments := (m.signature.bind a).mapError (.bind qualname)

end MethodGuard
