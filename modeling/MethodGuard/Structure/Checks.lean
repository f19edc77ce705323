/-
# The standard structural checks

A class that is about to have its first instance must keep what its markers and requirements
promise: required names are methods; every name marked for a validator is a method and has one,
which under strict options declares the same parameters and no result; names marked for type
checks are methods.  Each check reports every problem of its kind.
-/
import MethodGuard.Class.Basic

namespace MethodGuard

namespace Shape

/-! ## 1. Single names -/

/-- The method of a name that must be one. -/
def requireMethod (s : Shape) (name : String) : Except StructureError Method :=
  match s.member? name with
  | some (.method m) => .ok m
  | some (.attribute _) => .error (.notCallable s.name name)
  | some (.abstract _) => .error (.missingMethod s.name name)
  | none => .error (.missingMethod s.name name)

/-- The method that validates another one's inputs. -/
def requireValidator (s : Shape) (name : String) : Except StructureError Method :=
  match s.member? (validatorName name) with
  | some (.method v) => .ok v
  | some (.attribute _) => .error (.notCallable s.name (validatorName name))
  | some (.abstract _) => .error (.missingValidator s.name (validatorName name) name)
  | none => .error (.missingValidator s.name (validatorName name) name)

/-- How a result annotation is named in a problem. -/
def returnName : Option TypeSpec → String
  | some spec => spec.displayName
  | none => "no annotation"

/-- What strict options ask of a validator. -/
def requireContract (name : String) (method validator : Method) : Except StructureError Unit :=
  if !validator.signature.sameParameters method.signature then
    .error (.signatureMismatch (validatorName name) name)
  else if validator.signature.returns = some .none then .ok ()
  else .error (.validatorReturn (validatorName name) (returnName validator.signature.returns))

/-- All that a name marked for a validator must keep. -/
def requirePrerun (s : Shape) (name : String) : Except StructureError Unit :=
  match s.requireMethod name with
  | .error e => .error e
  | .ok method =>
    match s.requireValidator name with
    | .error e => .error e
    | .ok validator =>
      if s.options.strictValidators then requireContract name method validator else .ok ()

/-- The problem of a requirement that is not met. -/
def problem? {α : Type u} : Except StructureError α → Option StructureError
  | .ok _ => none
  | .error e => some e

/-! ## 2. All names -/

/-- The problems of required names. -/
def requiredProblems (s : Shape) : List StructureError :=
  s.required.filterMap fun name => problem? (s.requireMethod name)

/-- The problems of names marked for a validator. -/
def prerunProblems (s : Shape) : List StructureError :=
  s.prerun.names.filterMap fun name => problem? (s.requirePrerun name)

/-- The problems of names marked for type checks; those marked for a validator as well have been
looked at. -/
def typedProblems (s : Shape) : List StructureError :=
  (s.typed.names.filter fun name => !s.prerun.contains name).filterMap fun name =>
    problem? (s.requireMethod name)

end Shape

namespace Check

/-- A check that lists problems and emits nothing. -/
def ofProblems (name : String) (problems : Shape → List StructureError) : Check :=
  ⟨name, fun s => .pure (match problems s with
    | [] => .ok ()
    | errors => .error errors)⟩

/-- Every required name is a method. -/
def requiredMethods : Check := ofProblems "Required Methods" Shape.requiredProblems

/-- Every name marked for a validator is a method and has one. -/
def prerunValidators : Check := ofProblems "Prerun Validators" Shape.prerunProblems

/-- Every name marked for type checks is a method. -/
def typeValidatedMethods : Check := ofProblems "Type Validated Methods" Shape.typedProblems

/-- The standard checks in order. -/
def standard : List Check := [requiredMethods, prerunValidators, typeValidatedMethods]

/-! ## 3. Scripted checks -/

/-- A check that leaves a record and then gives an answer fixed beforehand, except that it passes
every class where the name `exempting` stands for something. -/
def scripted (name : String) (answer : Except (List StructureError) Unit)
    (exempting : Option String) : Check :=
  ⟨name, fun s =>
    ⟨if (exempting.bind s.resolve?).isSome then .ok () else answer, [.checkRan name s.name]⟩⟩

end Check

end MethodGuard
