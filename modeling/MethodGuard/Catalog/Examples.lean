/-
# The example classes

`ActionExample` declares an abstract method `action`, marked for both kinds of validation, together
with its validator: every item of its list must be an integer.  `AdderExample` and
`MultiplierExample` write the method, `InvalidExample` does not, and `UnvalidatedExample` marks a
method of its own and has no validator for it.
-/
import MethodGuard.World.Basic

namespace MethodGuard

namespace Examples

/-- What the names of the example classes begin with. -/
def moduleName : String := "validating_base.examples"

/-- The full name of an example class. -/
def qualified (name : String) : String := moduleName ++ "." ++ name

/-! ## 1. Bodies -/

/-- The parameter of `action` and of its validator. -/
def listName : String := "number_list"

/-- A list of integers, and no declared result. -/
def listSignature : Signature := Signature.empty.param (.typed listName (.list .integer))

/-- The signature of `action`. -/
def actionSignature : Signature := listSignature.returning .integer

/-- The items of the list argument. -/
def numbers (bound : BoundArguments) : Except MethodError (List Value) :=
  match (bound.find? listName).bind Value.list? with
  | some items => .ok items
  | none => .error (.type (listName ++ " must be a list"))

/-- The error of an item that is no integer. -/
def notInteger (item : Value) : MethodError := .type (item.display ++ " is not an integer")

/-- Refuse the first item that is no integer. -/
def checkNumbers : List Value → Except MethodError Unit
  | [] => .ok ()
  | .integer _ :: rest => checkNumbers rest
  | item :: _ => .error (notInteger item)

/-- The validator: every item is an integer. -/
def validateAction : Body := fun bound =>
  match numbers bound with
  | .error e => .fail e
  | .ok items =>
    match checkNumbers items with
    | .error e => .fail e
    | .ok () => .succeed .none

/-- The integer, if 64 bits hold it. -/
def checkedInteger (n : Int) : Option Int64 :=
  if Value.fits n then some (Int64.ofInt n) else none

/-- Combine integers from the left; every intermediate result must fit. -/
def foldNumbers (combine : Int → Int → Int) (total : Int64) :
    List Value → Except MethodError Int64
  | [] => .ok total
  | item :: rest =>
    match item.integer? with
    | none => .error (notInteger item)
    | some n =>
      match checkedInteger (combine total.toInt n.toInt) with
      | some total' => foldNumbers combine total' rest
      | none => .error (.value "integer overflow")

/-- The body of an `action` that combines the integers of its list. -/
def foldAction (combine : Int → Int → Int) (start : Int64) : Body := fun bound =>
  match numbers bound with
  | .error e => .fail e
  | .ok items =>
    match foldNumbers combine start items with
    | .error e => .fail e
    | .ok total => .succeed (.integer total)

/-! ## 2. Class statements -/

/-- The markers of a fully validated method. -/
def bothMarkers : List Marker := [.prerun, .type]

/-- The base of the examples, with its abstract method. -/
def action : Definition where
  name := qualified "ActionExample"
  bases := []
  body := [
    .abstract (AbstractMethod.mark ⟨"action", actionSignature, .none⟩ bothMarkers),
    .method ⟨"validate_action", listSignature.returning .none, .none, validateAction⟩]

/-- The sum of the list. -/
def adder (base : Class) : Definition where
  name := qualified "AdderExample"
  bases := [base]
  body := [.method ⟨"action", actionSignature, .none, foldAction (· + ·) 0⟩]

/-- The product of the list. -/
def multiplier (base : Class) : Definition where
  name := qualified "MultiplierExample"
  bases := [base]
  body := [.method ⟨"action", actionSignature, .none, foldAction (· * ·) 1⟩]

/-- A class that leaves `action` abstract. -/
def invalid (base : Class) : Definition where
  name := qualified "InvalidExample"
  bases := [base]
  body := []

/-- A class with a marked method and no validator. -/
def unvalidated : Definition where
  name := qualified "UnvalidatedExample"
  bases := []
  body := [.method
    (Method.mark ⟨"action", actionSignature, .none, foldAction (· + ·) 0⟩ bothMarkers)]

end Examples

namespace World

/-! ## 3. Registering the examples -/

/-- Build a class and register it. -/
def defineRegistered (w : World) (d : Definition) : Reply (Except DefinitionError Class) :=
  (w.define d).bind fun result w' =>
    match result with
    | .error e => ⟨.error e, [], w'⟩
    | .ok c => (w'.register c).map fun _ => .ok c

/-- Build and register classes in order, until one is refused. -/
def defineAll (w : World) : List Definition → Reply (Except DefinitionError Unit)
  | [] => ⟨.ok (), [], w⟩
  | d :: rest =>
    (w.defineRegistered d).bind fun result w' =>
      match result with
      | .error e => ⟨.error e, [], w'⟩
      | .ok _ => defineAll w' rest

/-- Build the example classes and register them, the base last. -/
def registerExamples (w : World) : Reply (Except DefinitionError Unit) :=
  (w.define Examples.action).bind fun result w' =>
    match result with
    | .error e => ⟨.error e, [], w'⟩
    | .ok base =>
      (w'.defineAll [Examples.adder base, Examples.multiplier base, Examples.invalid base,
        Examples.unvalidated]).bind fun result w'' =>
        match result with
        | .error e => ⟨.error e, [], w''⟩
        | .ok () => (w''.register base).map .ok

end World

end MethodGuard
