/-
# What can go wrong, phase by phase

Every phase has its own causes of failure: building a class, checking its structure, binding
arguments, running a method body, constructing an instance, calling a method, reading options.
Causes are data; the wording of each is in one `message` function beside its type.  `EngineError`
puts a cause in the context of the phase it came from, and `EngineError.chain` lists the messages
a report on a terminal shows one after the other.
-/
import MethodGuard.TypeSpec.Basic

namespace MethodGuard

/-! ## 1. Binding arguments -/

/-- Why arguments do not fit a signature. -/
inductive BindError where
  | tooManyPositional (expected got : Nat)
  | unexpectedKeyword (name : String)
  | multipleValues (name : String)
  | missingArgument (name : String)
  deriving DecidableEq

/-- The wording of a binding error. -/
def BindError.message : BindError → String
  | .tooManyPositional expected got =>
    "takes " ++ toString expected ++ " positional arguments but " ++ toString got ++ " were given"
  | .unexpectedKeyword name => "got an unexpected keyword argument '" ++ name ++ "'"
  | .multipleValues name => "got multiple values for argument '" ++ name ++ "'"
  | .missingArgument name => "missing a required argument: '" ++ name ++ "'"

/-! ## 2. Running a body -/

/-- An error raised by a method body. -/
inductive MethodError where
  | type (text : String)
  | value (text : String)
  | notImplemented (text : String)
  | other (text : String)
  deriving DecidableEq

/-- The wording of a raised error is the body's own. -/
def MethodError.message : MethodError → String
  | .type text => text
  | .value text => text
  | .notImplemented text => text
  | .other text => text

/-! ## 3. Building a class -/

/-- Why a class statement is refused. -/
inductive DefinitionError where
  | deprecated (className member : String)
  | duplicateBase (className base : String)
  | inconsistentHierarchy (className : String)
  | duplicateMember (className member : String)
  deriving DecidableEq

/-- The wording of a definition error. -/
def DefinitionError.message : DefinitionError → String
  | .deprecated className member =>
    "'" ++ className ++ "' sets the deprecated '" ++ member
      ++ "' attribute; mark methods with `validated`/`prerun_validated`/`type_validated` and "
      ++ "declare required methods with `abstract_method` or `require` instead"
  | .duplicateBase className base =>
    "'" ++ className ++ "' lists base '" ++ base ++ "' more than once"
  | .inconsistentHierarchy className =>
    "Cannot create a consistent method resolution order for '" ++ className ++ "'"
  | .duplicateMember className member =>
    "'" ++ className ++ "' defines member '" ++ member ++ "' more than once"

/-! ## 4. Checking a class's structure -/

/-- A structural problem of a built class. -/
inductive StructureError where
  | missingMethod (className method : String)
  | missingValidator (className validator method : String)
  | notCallable (className member : String)
  | signatureMismatch (validator method : String)
  | validatorReturn (validator found : String)
  deriving DecidableEq

namespace StructureError

/-- The wording of a structural problem. -/
def message : StructureError → String
  | .missingMethod className method =>
    "The " ++ method ++ " method must be defined on '" ++ className ++ "'"
  | .missingValidator className validator method =>
    "The " ++ validator ++ " method must be defined on '" ++ className ++ "' for the " ++ method
      ++ " method"
  | .notCallable className member =>
    "The " ++ member ++ " attribute of '" ++ className ++ "' must be a callable"
  | .signatureMismatch validator method =>
    "The " ++ validator ++ " method must have the same argument signature as the " ++ method
      ++ " method"
  | .validatorReturn validator found =>
    "The " ++ validator ++ " method must have a return type of None, found " ++ found

/-- Whether the problem is that something has not been written yet. -/
def isMissingImplementation : StructureError → Bool
  | .missingMethod .. => true
  | .missingValidator .. => true
  | _ => false

/-- Whether the problem is that something written has the wrong type. -/
def isTypeError (e : StructureError) : Bool := !e.isMissingImplementation

end StructureError

/-! ## 5. Constructing an instance -/

/-- Why no instance was constructed. -/
inductive InstantiateError where
  | abstract (className : String) (methods : List String)
  | structural (cause : StructureError)
  | bind (className : String) (cause : BindError)
  | init (cause : MethodError)
  deriving DecidableEq

namespace InstantiateError

/-- The wording of a failed construction. -/
def message : InstantiateError → String
  | .abstract className methods =>
    "Can't instantiate abstract class '" ++ className ++ "' with abstract methods "
      ++ ", ".intercalate methods
  | .structural cause => cause.message
  | .bind className cause =>
    "Invalid arguments for '" ++ className ++ "' initializer: " ++ cause.message
  | .init cause => cause.message

/-- The messages of what lies behind a failed construction. -/
def sources : InstantiateError → List String
  | .bind _ cause => [cause.message]
  | _ => []

/-- Whether the class is unfinished, or its initializer says so. -/
def isMissingImplementation : InstantiateError → Bool
  | .abstract .. => true
  | .structural cause => cause.isMissingImplementation
  | .init (.notImplemented _) => true
  | _ => false

/-- The structural problem, if that is the cause. -/
def structural? : InstantiateError → Option StructureError
  | .structural cause => some cause
  | _ => none

end InstantiateError

/-! ## 6. Calling a method -/

/-- Why a call gave no result. -/
inductive CallError where
  | unknownMethod (className method : String)
  | notCallable (className member : String)
  | bind (method : String) (cause : BindError)
  | argumentType (method parameter : String) (expected : TypeSpec) (detail : String)
  | returnType (method : String) (expected : TypeSpec) (detail : String)
  | structural (cause : StructureError)
  | raised (cause : MethodError)
  deriving DecidableEq

namespace CallError

/-- The wording of a failed call. -/
def message : CallError → String
  | .unknownMethod className method => "'" ++ className ++ "' has no method '" ++ method ++ "'"
  | .notCallable className member =>
    "The " ++ member ++ " attribute of '" ++ className ++ "' is not callable"
  | .bind method cause => "Invalid arguments for '" ++ method ++ "': " ++ cause.message
  | .argumentType method parameter expected detail =>
    "argument \"" ++ parameter ++ "\" of '" ++ method ++ "' is not " ++ expected.displayName
      ++ ": " ++ detail
  | .returnType method expected detail =>
    "the return value of '" ++ method ++ "' is not " ++ expected.displayName ++ ": " ++ detail
  | .structural cause => cause.message
  | .raised cause => cause.message

/-- The messages of what lies behind a failed call. -/
def sources : CallError → List String
  | .bind _ cause => [cause.message]
  | _ => []

/-- Whether the call was refused for a type, or its body raised a type error. -/
def isTypeError : CallError → Bool
  | .argumentType .. => true
  | .returnType .. => true
  | .bind .. => true
  | .notCallable .. => true
  | .structural cause => cause.isTypeError
  | .raised (.type _) => true
  | _ => false

/-- The error raised by a body, if that is the cause. -/
def raised? : CallError → Option MethodError
  | .raised cause => some cause
  | _ => none

end CallError

/-! ## 7. Reading options -/

/-- Why an options file has no text. -/
inductive FileError where
  | notFound
  | notUtf8
  deriving DecidableEq

/-- The wording of a file error. -/
def FileError.message : FileError → String
  | .notFound => "No such file or directory (os error 2)"
  | .notUtf8 => "stream did not contain valid UTF-8"

/-- Why no options were read. -/
inductive OptionsError where
  | file (cause : FileError)
  | parse
  deriving DecidableEq

namespace OptionsError

/-- The wording of an options error. -/
def message : OptionsError → String
  | .file cause => "Failed to read options file: " ++ cause.message
  | .parse => "Failed to parse options: not an options document"

/-- The messages of what lies behind an options error. -/
def sources : OptionsError → List String
  | .file cause => [cause.message]
  | .parse => []

end OptionsError

/-! ## 8. All phases together -/

/-- An error with the phase it belongs to. -/
inductive EngineError where
  | definition (cause : DefinitionError)
  | instantiate (cause : InstantiateError)
  | call (cause : CallError)
  | options (cause : OptionsError)
  | unknownClass (name : String)
  deriving DecidableEq

namespace EngineError

/-- The wording of an error with its phase. -/
def message : EngineError → String
  | .definition cause => "Definition error: " ++ cause.message
  | .instantiate cause => "Instantiation error: " ++ cause.message
  | .call cause => "Call error: " ++ cause.message
  | .options cause => "Options error: " ++ cause.message
  | .unknownClass name => "Class not registered: " ++ name

/-- The messages of what lies behind an error, outermost first. -/
def sources : EngineError → List String
  | .definition cause => [cause.message]
  | .instantiate cause => cause.message :: cause.sources
  | .call cause => cause.message :: cause.sources
  | .options cause => cause.message :: cause.sources
  | .unknownClass _ => []

/-- The error's message and those of its sources, in one line. -/
def chain (e : EngineError) : String := ": ".intercalate (e.message :: e.sources)

end EngineError

/-- A failed call's message and those of its sources, in one line. -/
def CallError.chain (e : CallError) : String := ": ".intercalate (e.message :: e.sources)

end MethodGuard
