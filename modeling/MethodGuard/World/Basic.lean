/-
# The world of classes and objects

What later answers can depend on is kept in one value: how many classes have been built and how
many objects constructed, so that each gets an identity of its own; which classes have passed
their structural check; and the registry.  Every operation takes a `World` and gives a `Reply`,
with the world after it.

The structural check of a class runs before its first instance only.  Once it has passed it is
not run again, whatever becomes of that instance; as long as it fails it is run every time.
-/
import MethodGuard.Structure.Pipeline
import MethodGuard.Class.Definition
import MethodGuard.World.Object
import MethodGuard.World.Registry

namespace MethodGuard

/-- All that later answers can depend on. -/
structure World where
  /-- The number of classes built. -/
  built : Nat
  /-- The number of objects constructed or begun. -/
  begun : Nat
  /-- The classes that have passed their structural check. -/
  checked : List ClassId
  registry : Registry

/-- An operation's result, its events, and the world after it. -/
structure Reply (α : Type u) where
  value : α
  events : List Event
  world : World

namespace Reply

variable {α : Type u} {β : Type v}

/-- The result changed. -/
def map (f : α → β) (r : Reply α) : Reply β := ⟨f r.value, r.events, r.world⟩

/-- Go on with the result in the world it was given in. -/
def bind (r : Reply α) (next : α → World → Reply β) : Reply β :=
  let r' := next r.value r.world
  ⟨r'.value, r.events ++ r'.events, r'.world⟩

end Reply

namespace World

/-- The world before anything has been built. -/
def initial : World := ⟨0, 0, [], .empty⟩

instance : Inhabited World := ⟨initial⟩

/-- Whether a class has passed its structural check. -/
def isChecked (w : World) (c : Class) : Bool := w.checked.contains c.id

/-! ## 1. Building classes -/

/-- Build a class. -/
def define (w : World) (d : Definition) : Reply (Except DefinitionError Class) :=
  match Class.define w.built d with
  | .error e => ⟨.error e, [], w⟩
  | .ok c => ⟨.ok c, [c.builtEvent], { w with built := w.built + 1 }⟩

/-! ## 2. Constructing objects -/

/-- Run a class's structural check unless it has passed before. -/
def ensureChecked (w : World) (c : Class) : Reply (Except StructureError Unit) :=
  if w.isChecked c then ⟨.ok (), [], w⟩
  else
    let found := c.pipeline.ensure c.toShape
    match found.value with
    | .error e => ⟨.error e, found.events, w⟩
    | .ok () => ⟨.ok (), found.events, { w with checked := c.id :: w.checked }⟩

/-- Initialize a new object of a class that has passed its check. -/
def runInitializer? (w : World) (c : Class) (a : Arguments) :
    Option (Reply (Except InstantiateError Object)) :=
  let w' := { w with begun := w.begun + 1 }
  let object : Object := ⟨w.begun, c, .empty, true⟩
  match c.initializer with
  | none =>
    match Signature.empty.bind a with
    | .error e => some ⟨.error (.bind c.name e), [], w'⟩
    | .ok _ => some ⟨.ok object, [], w'⟩
  | some init =>
    match init.signature.bind a with
    | .error e => some ⟨.error (.bind c.name e), [], w'⟩
    | .ok bound =>
      (object.perform (init.invoke c.toShape c.call bound)).map fun done =>
        match done.value with
        | (.ok _, object') => ⟨.ok object', done.events, w'⟩
        | (.error e, _) => ⟨.error (.init e), done.events, w'⟩

/-- Construct an object; `none` when the initializer's calls nest too deep. -/
def instantiate? (w : World) (c : Class) (a : Arguments) :
    Option (Reply (Except InstantiateError Object)) :=
  if c.isAbstract then some ⟨.error (.abstract c.name c.abstractNames), [], w⟩
  else
    let check := w.ensureChecked c
    match check.value with
    | .error e => some ⟨.error (.structural e), check.events, check.world⟩
    | .ok () =>
      (check.world.runInitializer? c a).map fun r => { r with events := check.events ++ r.events }

/-! ## 3. The registry -/

/-- Register a class. -/
def register (w : World) (c : Class) : Reply Unit :=
  ⟨(), [.registering c.name], { w with registry := w.registry.register c }⟩

/-- Unregister a name; whether it was registered. -/
def unregister (w : World) (name : String) : Reply Bool :=
  ⟨w.registry.contains name, [], { w with registry := w.registry.unregister name }⟩

/-- Construct an object of a registered class. -/
def instantiateNamed? (w : World) (name : String) (a : Arguments) :
    Option (Reply (Except EngineError Object)) :=
  match w.registry.find? name with
  | none => some ⟨.error (.unknownClass name), [], w⟩
  | some c => (w.instantiate? c a).map fun r => r.map fun result => result.mapError .instantiate

/-- The structural report of a registered class. -/
def reportNamed (w : World) (name : String) : Traced (Except EngineError Report) :=
  match w.registry.find? name with
  | none => .pure (.error (.unknownClass name))
  | some c => (c.pipeline.report c.toShape).map .ok

end World

end MethodGuard
