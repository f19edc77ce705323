/-
# Building a class from its statement

A class statement lists bases and then, in order, what its body says.  Building refuses four
mistakes, looked for in this order: an own member with a name of the old list-based style, a name
defined twice, a base listed twice, and bases whose orders contradict each other.  A statement
without mistakes always gives a class.

Members, initializer and options are looked for along the class and its ancestors in resolution
order; validated names, required names and checks are gathered from the direct bases, which have
gathered theirs before.
-/
import MethodGuard.Class.Basic
import MethodGuard.Class.Linearization

namespace MethodGuard

/-! ## 1. Class statements -/

/-- One entry of a class body. -/
inductive Entry where
  | method (m : Method)
  | abstract (m : AbstractMethod)
  | attribute (name : String) (value : Value)
  | require (name : String)
  | initializer (signature : Signature) (body : Body)
  | options (o : ValidationOptions)
  | check (c : Check)

/-- A class statement. -/
structure Definition where
  name : String
  bases : List Class
  body : List Entry

namespace Entry

/-- The member that an entry defines, with its name. -/
def member? : Entry → Option (String × Member)
  | .method m => some (m.name, .method m)
  | .abstract m => some (m.name, .abstract m)
  | .attribute name value => some (name, .attribute value)
  | _ => none

/-- The name that an entry requires. -/
def require? : Entry → Option String
  | .require name => some name
  | _ => none

/-- The initializer that an entry defines. -/
def initializer? : Entry → Option Method
  | .initializer signature body => some ⟨"__init__", signature, .none, body⟩
  | _ => none

/-- The options that an entry sets. -/
def options? : Entry → Option ValidationOptions
  | .options o => some o
  | _ => none

/-- The check that an entry adds. -/
def check? : Entry → Option Check
  | .check c => some c
  | _ => none

end Entry

/-! ## 2. First occurrences -/

/-- The first of each group of elements with the same key, in order. -/
def firstByKey {α : Type u} {κ : Type v} [DecidableEq κ] (key : α → κ) : List α → List α
  | [] => []
  | x :: rest => x :: (firstByKey key rest).filter fun y => decide (key y ≠ key x)

/-- The first element equal to an earlier one by key, given the keys seen before. -/
def firstRepeated {α : Type u} {κ : Type v} [DecidableEq κ] (key : α → κ) (seen : List κ) :
    List α → Option α
  | [] => none
  | x :: rest => if key x ∈ seen then some x else firstRepeated key (key x :: seen) rest

namespace Definition

/-! ## 3. What the statement itself says -/

/-- The members of the body in order, repeated names included. -/
def memberEntries (d : Definition) : List (String × Member) := d.body.filterMap Entry.member?

/-- The own members of the class. -/
def members (d : Definition) : OrderedMap Member := .ofList d.memberEntries

/-- The required names of the body in order. -/
def requires (d : Definition) : List String := d.body.filterMap Entry.require?

/-- The last of several initializers counts. -/
def initializer (d : Definition) : Option Method := (d.body.filterMap Entry.initializer?).getLast?

/-- The last of several options counts. -/
def options (d : Definition) : Option ValidationOptions :=
  (d.body.filterMap Entry.options?).getLast?

/-- The checks of the body, identified by the class and their place. -/
def stages (d : Definition) (id : ClassId) : List Stage :=
  (d.body.filterMap Entry.check?).zipIdx.map fun found => ⟨id, found.2, found.1⟩

/-- The own part of the class to be built. -/
def declaration (d : Definition) (id : ClassId) : Declaration :=
  ⟨id, d.name, d.members, d.initializer, d.options⟩

/-! ## 4. Mistakes -/

/-- Names of class attributes in the old list-based style. -/
def deprecatedNames : List String := ["required_methods", "validated_methods"]

/-- The name of the old style that the body uses. -/
def deprecated? (d : Definition) : Option String :=
  deprecatedNames.find? fun name => d.members.contains name

/-- The name whose second definition comes first. -/
def duplicateMember? (d : Definition) : Option String :=
  (firstRepeated Prod.fst [] d.memberEntries).map Prod.fst

/-- The first base that was listed before. -/
def duplicateBase? (d : Definition) : Option Class := firstRepeated (fun b => b.id) [] d.bases

/-- The ancestors in resolution order, unless the bases' orders contradict each other. -/
def ancestors? (d : Definition) : Option (List Declaration) :=
  Linearization.merge? Declaration.id (d.bases.map (fun b => b.lineage) ++ [d.bases.map (·.own)])

end Definition

/-! ## 5. What follows from the order of ancestors -/

namespace Shape

/-- What every name stands for: its first definition along the classes. -/
def resolveAlong (classes : List Declaration) : OrderedMap Resolved :=
  classes.foldl (fun found d =>
    d.members.entries.foldl (fun found entry => found.insertNew entry.1 ⟨entry.2, d.name⟩) found)
    .empty

/-- The own names whose members carry a marker. -/
def markedNames (marker : Marker) (members : OrderedMap Member) : List String :=
  (members.entries.filter fun entry => entry.2.markers.contains marker).map Prod.fst

/-- The own marked names and those of the direct bases. -/
def gather (own : List String) (inherited : List NameSet) : NameSet :=
  inherited.foldl NameSet.union (NameSet.ofList own)

/-- The names that stand for abstract methods. -/
def abstractNamesOf (resolved : OrderedMap Resolved) : List String :=
  (resolved.entries.filter fun entry => entry.2.member.isAbstract).map Prod.fst

/-- The validator that a prerun name has, if its name stands for a method. -/
def validatorOf? (resolved : OrderedMap Resolved) (name : String) : Option Validator :=
  match resolved.find? (validatorName name) with
  | some ⟨.method m, owner⟩ => some ⟨owner ++ "." ++ validatorName name, m⟩
  | _ => none

/-- The proxy of a validated name, if it stands for a method. -/
def proxyOf? (className : String) (options : ValidationOptions) (resolved : OrderedMap Resolved)
    (prerun typed : NameSet) (name : String) : Option (String × ValidatedMethod) :=
  match resolved.find? name with
  | some ⟨.method m, _⟩ =>
    some (name, {
      className := className
      qualname := className ++ "." ++ name
      method := m
      prerun := prerun.contains name
      validator := if prerun.contains name then validatorOf? resolved name else none
      typed := typed.contains name
      collectionCheck := options.collectionCheck })
  | _ => none

/-- The shape of a class, given its ancestors. -/
def ofDefinition (d : Definition) (id : ClassId) (ancestors : List Declaration) : Shape :=
  let own := d.declaration id
  let resolved := resolveAlong (own :: ancestors)
  let prerun := gather (markedNames .prerun own.members) (d.bases.map (·.prerun))
  let typed := gather (markedNames .type own.members) (d.bases.map (·.typed))
  let options := ((own :: ancestors).findSome? (·.options)).getD .strict
  { own := own
    bases := d.bases.map (·.own)
    ancestors := ancestors
    resolved := resolved
    prerun := prerun
    typed := typed
    required := firstByKey (fun name : String => name) (d.bases.flatMap (·.required) ++ d.requires)
    abstractNames := abstractNamesOf resolved
    initializer := (own :: ancestors).findSome? (·.initializer)
    options := options
    dispatch := .ofList ((prerun.union typed).names.filterMap
      (proxyOf? d.name options resolved prerun typed)) }

end Shape

/-! ## 6. Building -/

namespace Class

/-- The class of a statement, given its ancestors. -/
def ofDefinition (d : Definition) (id : ClassId) (ancestors : List Declaration) : Class :=
  { Shape.ofDefinition d id ancestors with
    stages := firstByKey Stage.key (d.bases.flatMap (·.stages) ++ d.stages id) }

/-- Build the class of a statement under a new identity. -/
def define (id : ClassId) (d : Definition) : Except DefinitionError Class :=
  match d.deprecated? with
  | some name => .error (.deprecated d.name name)
  | none =>
    match d.duplicateMember? with
    | some name => .error (.duplicateMember d.name name)
    | none =>
      match d.duplicateBase? with
      | some base => .error (.duplicateBase d.name base.name)
      | none =>
        match d.ancestors? with
        | none => .error (.inconsistentHierarchy d.name)
        | some ancestors => .ok (ofDefinition d id ancestors)

/-- The record of a class having been built. -/
def builtEvent (c : Class) : Event := .built c.name c.prerun c.typed c.abstractNames

end Class

end MethodGuard
