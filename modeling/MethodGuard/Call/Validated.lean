/-
# Calls of validated methods

Every call of a marked method passes these checkpoints, in this order, and stops at the first that
fails:

1. the arguments bind to the validator, and the validator accepts them,
2. the arguments bind to the method,
3. the supplied arguments have the declared types,
4. the body runs,
5. the result has the declared type.

The first belongs to methods marked for a validator, the third and the fifth to methods marked for
type checks.  The value that a validator returns does not count.
-/
import MethodGuard.Call.Run
import MethodGuard.Signature.TypeCheck

namespace MethodGuard

namespace ValidatedMethod

variable (p : ValidatedMethod) (s : Shape) (nested : Caller)

/-- The first checkpoint: the validator accepts the caller's arguments. -/
def validateInputs (a : Arguments) : Run (Except CallError Unit) :=
  if p.prerun then
    match p.validator with
    | none =>
      Run.ofExcept (.error (.structural
        (.missingValidator p.className (validatorName p.method.name) p.method.name)))
    | some v =>
      (Run.ofExcept (v.method.bindAs v.qualname a)).andThen fun bound =>
        (v.method.perform s nested bound).andThen fun _ =>
          Run.log (.inputsOk p.qualname v.qualname) (.ok ())
  else Run.ofExcept (.ok ())

/-- A check that belongs to methods marked for type checks, with its record. -/
def typeCheckpoint (check : Except CallError Unit) (event : Event) : Run (Except CallError Unit) :=
  if p.typed then (Run.ofExcept check).andThen fun _ => Run.log event (.ok ())
  else Run.ofExcept (.ok ())

/-- The third checkpoint: the supplied arguments have the declared types. -/
def validateArguments (bound : BoundArguments) : Run (Except CallError Unit) :=
  p.typeCheckpoint (checkArguments p.qualname p.method.signature bound p.collectionCheck)
    (.argumentTypesOk p.qualname)

/-- The fifth checkpoint: the result has the declared type. -/
def validateResult (result : Value) : Run (Except CallError Unit) :=
  p.typeCheckpoint (checkReturn p.qualname p.method.signature result p.collectionCheck)
    (.returnTypeOk p.qualname)

/-- A call through all checkpoints. -/
def call (a : Arguments) : Run (Except CallError Value) :=
  (Run.log (.calling p.qualname) ()).bind fun _ =>
    (p.validateInputs s nested a).andThen fun _ =>
      (Run.ofExcept (p.method.bindAs p.qualname a)).andThen fun bound =>
        (p.validateArguments bound).andThen fun _ =>
          (p.method.perform s nested bound).andThen fun result =>
            (p.validateResult result).andThen fun _ => Run.pure (.ok result)

end ValidatedMethod

end MethodGuard
