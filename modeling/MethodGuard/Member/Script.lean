/-
# Scripted bodies

A script is a list of statements, done in order until one returns or raises; at its end the result
is the absence of a value.  What a script refers to and does not find, be it an argument, a field
or a typed view of one, is the absence of a value too.
-/
import MethodGuard.Member.Program

namespace MethodGuard

/-- A statement of a scripted body. -/
inductive Statement where
  | returnValue (value : Value)
  | returnArgument (parameter : String)
  | returnField (field : String)
  | returnInteger (parameter : String)
  | returnFloat (parameter : String)
  | returnString (parameter : String)
  | returnList (parameter : String)
  | returnArguments
  | returnSupplied
  | returnIsSupplied (parameter : String)
  | returnSum (parameter : String)
  | returnClassName
  | set (field : String) (value : Value)
  | setArgument (field parameter : String)
  | add (field : String) (amount : Int64)
  | log (text : String)
  | raise (error : MethodError)
  | raiseIf (parameter : String) (value : Value) (error : MethodError)
  | checkIntegers (parameter : String)
  | call (method : String) (arguments : Arguments)
  | tryCall (method : String) (arguments : Arguments) (field : String)

namespace Statement

/-- The items of a list argument; nothing when it is no list. -/
def itemsOf (bound : BoundArguments) (parameter : String) : List Value :=
  ((bound.find? parameter).bind Value.list?).getD []

/-- The sum of the integers among some values, in 64-bit arithmetic. -/
def sum (items : List Value) : Int64 :=
  (items.filterMap Value.integer?).foldl (fun total i => total + i) 0

/-- An error of a nested call, raised again: an error that a body raised as it is, any other as a
text. -/
def reraise : CallError → MethodError
  | .raised e => e
  | e => .other e.message

/-- The error of a value that should be an integer. -/
def notInteger (value : Value) : MethodError := .type (value.display ++ " is not an integer")

/-- Finish with a value that may be missing. -/
def give (value : Option Value) : Program := .succeed (value.getD .none)

/-- Do a statement, and then what follows unless the statement finishes. -/
def perform (bound : BoundArguments) (next : Program) : Statement → Program
  | .returnValue value => .succeed value
  | .returnArgument p => give (bound.find? p)
  | .returnField field => .inspect fun view => give (view.get? field)
  | .returnInteger p => give (((bound.find? p).bind Value.integer?).map .integer)
  | .returnFloat p => give (((bound.find? p).bind Value.float?).map .float)
  | .returnString p => give (((bound.find? p).bind Value.string?).map .string)
  | .returnList p => give (((bound.find? p).bind Value.list?).map .list)
  | .returnArguments => .succeed (.map bound.entries)
  | .returnSupplied => .succeed (.map bound.supplied)
  | .returnIsSupplied p => .succeed (.boolean (bound.isSupplied p))
  | .returnSum p => .succeed (.integer (sum (itemsOf bound p)))
  | .returnClassName => .inspect fun view => .succeed (.string view.className)
  | .set field value => .assign field value next
  | .setArgument field p => .assign field ((bound.find? p).getD .none) next
  | .add field amount => .inspect fun view =>
    .assign field (.integer ((((view.get? field).bind Value.integer?).getD 0) + amount)) next
  | .log text => .note text next
  | .raise e => .fail e
  | .raiseIf p value e =>
    match bound.find? p with
    | some v => if v.equal value then .fail e else next
    | none => next
  | .checkIntegers p =>
    match (itemsOf bound p).find? fun item => !item.integer?.isSome with
    | some item => .fail (notInteger item)
    | none => next
  | .call method arguments => .call method arguments fun result =>
    .finish (result.mapError reraise)
  | .tryCall method arguments field => .call method arguments fun result =>
    match result with
    | .ok value => .assign field value next
    | .error e => .assign field (.string e.message) next

end Statement

/-- The body of a script. -/
def Body.ofScript (script : List Statement) : Body := fun bound =>
  script.foldr (fun statement next => statement.perform bound next) (.succeed .none)

end MethodGuard
