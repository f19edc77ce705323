/-
# Signatures

A signature lists the parameters a method accepts (the receiver is implicit) and the type of its
result.  Nothing forbids two parameters of one name; looking a name up finds the first.
-/
import MethodGuard.Value.Display
import MethodGuard.TypeSpec.Basic

namespace MethodGuard

/-- How a caller may supply a parameter. -/
inductive ParameterKind where
  | positionalOrKeyword
  | keywordOnly
  deriving DecidableEq

/-- A declared parameter. -/
structure Parameter where
  name : String
  /-- The type that the parameter declares. -/
  declared : Option TypeSpec
  kind : ParameterKind
  /-- The value taken when the caller supplies none. -/
  fallback : Option Value

/-- The parameters of a method in order, and the type of its result. -/
structure Signature where
  parameters : List Parameter
  returns : Option TypeSpec

/-! ## 1. Writing signatures -/

namespace Parameter

/-- An annotated parameter, by position or by name. -/
def typed (name : String) (spec : TypeSpec) : Parameter :=
  ⟨name, some spec, .positionalOrKeyword, none⟩

/-- Whether the parameter may be supplied by position. -/
def isPositional (p : Parameter) : Bool := p.kind == .positionalOrKeyword

/-- Whether two parameters are declared alike; default values are compared as values. -/
def equal (p q : Parameter) : Bool :=
  p.name == q.name && p.declared == q.declared && p.kind == q.kind
    && Value.equalOption p.fallback q.fallback

end Parameter

namespace Signature

/-- No parameters and no declared result. -/
def empty : Signature := ⟨[], none⟩

instance : Inhabited Signature := ⟨empty⟩

/-- The signature with one more parameter. -/
def param (s : Signature) (p : Parameter) : Signature :=
  { s with parameters := s.parameters ++ [p] }

/-- The signature with a declared result. -/
def returning (s : Signature) (spec : TypeSpec) : Signature := { s with returns := some spec }

/-! ## 2. Look-up and comparison -/

/-- The first parameter of a name. -/
def find? (s : Signature) (name : String) : Option Parameter :=
  s.parameters.find? fun p => p.name == name

/-- Whether two lists of parameters are declared alike. -/
def equalParameters : List Parameter → List Parameter → Bool
  | [], [] => true
  | p :: ps, q :: qs => p.equal q && equalParameters ps qs
  | _, _ => false

/-- Whether two signatures declare the same parameters; their results do not count. -/
def sameParameters (s t : Signature) : Bool := equalParameters s.parameters t.parameters

/-- Whether two signatures declare the same parameters and the same result. -/
def equal (s t : Signature) : Bool := s.sameParameters t && s.returns == t.returns

end Signature

/-! ## 3. Inspection -/

/-- The inspection of a value that may be absent. -/
def inspectOption {α : Type u} (inspect : α → String) : Option α → String
  | none => "None"
  | some a => "Some(" ++ inspect a ++ ")"

/-- A record with named fields, in constructor style. -/
def inspectRecord (name : String) (fields : List (String × String)) (complete : Bool) : String :=
  name ++ " \x7b " ++ ", ".intercalate (fields.map fun f => f.1 ++ ": " ++ f.2)
    ++ (if complete then " \x7d" else ", .. \x7d")

/-- The constructor's name. -/
def ParameterKind.inspect : ParameterKind → String
  | .positionalOrKeyword => "PositionalOrKeyword"
  | .keywordOnly => "KeywordOnly"

/-- The text of a parameter with its constructors. -/
def Parameter.inspect (p : Parameter) : String :=
  inspectRecord "Parameter" [
    ("name", quoted p.name),
    ("annotation", inspectOption TypeSpec.inspect p.declared),
    ("kind", p.kind.inspect),
    ("default", inspectOption Value.inspect p.fallback)] true

/-- The text of a signature with its constructors. -/
def Signature.inspect (s : Signature) : String :=
  inspectRecord "Signature" [
    ("parameters", bracketed (s.parameters.map Parameter.inspect)),
    ("returns", inspectOption TypeSpec.inspect s.returns)] true

end MethodGuard
