/-
# Binding arguments to parameters

A call supplies positional values and keyword values.  Binding them to a signature takes three
steps.  Positional values fill the positional parameters in order.  Keyword values are then taken
in the caller's order, each naming a parameter not filled yet.  Last, the parameters are walked in
the order of declaration: each takes its value, or its default, and the names that took a default
are remembered.

The steps hand on values under names.  With parameter names that differ this is what one expects;
with a repeated name the first parameter of it takes the value, and the second, which finds none
left, writes its default over it.
-/
import MethodGuard.Signature.Basic
import MethodGuard.Error

namespace MethodGuard

/-! ## 1. Arguments -/

/-- Arguments as the caller wrote them. -/
structure Arguments where
  positional : List Value
  keyword : OrderedMap Value

namespace Arguments

/-- No arguments. -/
def empty : Arguments := ⟨[], .empty⟩

instance : Inhabited Arguments := ⟨empty⟩

/-- Positional arguments only. -/
def ofValues (values : List Value) : Arguments := ⟨values, .empty⟩

/-- One more positional argument. -/
def arg (a : Arguments) (value : Value) : Arguments :=
  { a with positional := a.positional ++ [value] }

/-- One more keyword argument; a name given again takes the new value and keeps its place. -/
def kwarg (a : Arguments) (name : String) (value : Value) : Arguments :=
  { a with keyword := a.keyword.insert name value }

/-- The number of arguments. -/
def size (a : Arguments) : Nat := a.positional.length + a.keyword.size

/-- Whether there are no arguments. -/
def isEmpty (a : Arguments) : Bool := a.size == 0

end Arguments

/-! ## 2. Bound arguments -/

/-- Values under parameter names in the order of declaration, and the names that took their
default. -/
structure BoundArguments where
  values : OrderedMap Value
  defaulted : List String

namespace BoundArguments

/-- Nothing bound. -/
def empty : BoundArguments := ⟨.empty, []⟩

instance : Inhabited BoundArguments := ⟨empty⟩

/-- The value bound to a name. -/
def find? (b : BoundArguments) (name : String) : Option Value := b.values.find? name

/-- The names and values in order. -/
def entries (b : BoundArguments) : List (String × Value) := b.values.entries

/-- Whether the caller supplied the value of a name. -/
def isSupplied (b : BoundArguments) (name : String) : Bool :=
  b.values.contains name && !b.defaulted.contains name

/-- The names and values that the caller supplied, in the order of declaration. -/
def supplied (b : BoundArguments) : List (String × Value) :=
  b.entries.filter fun entry => !b.defaulted.contains entry.1

/-- The number of bound names. -/
def size (b : BoundArguments) : Nat := b.values.size

/-- Whether no name is bound. -/
def isEmpty (b : BoundArguments) : Bool := b.values.isEmpty

/-- Bind a name to a value that the caller supplied. -/
def supply (b : BoundArguments) (name : String) (value : Value) : BoundArguments :=
  { b with values := b.values.insert name value }

/-- Bind a name to its default. -/
def fallBack (b : BoundArguments) (name : String) (value : Value) : BoundArguments :=
  { values := b.values.insert name value
    defaulted := if b.defaulted.contains name then b.defaulted else b.defaulted ++ [name] }

end BoundArguments

/-! ## 3. The three steps -/

namespace Signature

/-- The parameters that positional values fill, in order. -/
def positionalParameters (s : Signature) : List Parameter := s.parameters.filter (·.isPositional)

/-- Positional values under the names of the parameters they fill. -/
def assignPositional (s : Signature) (values : List Value) : OrderedMap Value :=
  .ofList ((s.positionalParameters.map (·.name)).zip values)

/-- Keyword values added to the values assigned so far. -/
def assignKeywords (s : Signature) (assigned : OrderedMap Value) :
    List (String × Value) → Except BindError (OrderedMap Value)
  | [] => .ok assigned
  | (name, value) :: rest =>
    if (s.find? name).isNone then .error (.unexpectedKeyword name)
    else if assigned.contains name then .error (.multipleValues name)
    else s.assignKeywords (assigned.insert name value) rest

/-- The parameters in order of declaration, each with the value assigned to its name or with its
default. -/
def collect (assigned : OrderedMap Value) (bound : BoundArguments) :
    List Parameter → Except BindError BoundArguments
  | [] => .ok bound
  | p :: rest =>
    match assigned.find? p.name with
    | some value => collect (assigned.erase p.name) (bound.supply p.name value) rest
    | none =>
      match p.fallback with
      | some value => collect assigned (bound.fallBack p.name value) rest
      | none => .error (.missingArgument p.name)

/-- Bind arguments to the parameters. -/
def bind (s : Signature) (a : Arguments) : Except BindError BoundArguments :=
  let slots := s.positionalParameters.length
  if slots < a.positional.length then .error (.tooManyPositional slots a.positional.length)
  else
    match s.assignKeywords (s.assignPositional a.positional) a.keyword.entries with
    | .error e => .error e
    | .ok assigned => collect assigned .empty s.parameters

end Signature

end MethodGuard
