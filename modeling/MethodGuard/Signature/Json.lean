/-
# Signatures in JSON

A signature and each of its parameters is a record, or an array of the record's fields in order.
Annotations, defaults and the result may be missing from a record; in an array they may only be
`null`, which is also what they are written as when absent.
-/
import MethodGuard.Signature.Basic
import MethodGuard.TypeSpec.Json
import MethodGuard.Value.Json

namespace MethodGuard

/-! ## 1. Writing -/

/-- The data of something that may be absent. -/
def optionToJson {α : Type u} (toJson : α → Json) : Option α → Json
  | none => .null
  | some a => toJson a

/-- The name of a parameter's kind in JSON. -/
def ParameterKind.name : ParameterKind → String
  | .positionalOrKeyword => "positional_or_keyword"
  | .keywordOnly => "keyword_only"

/-- The kind of parameter of a name. -/
def ParameterKind.ofName? (name : String) : Option ParameterKind :=
  [positionalOrKeyword, keywordOnly].find? fun k => k.name == name

/-- The JSON data of a parameter. -/
def Parameter.toJson (p : Parameter) : Json :=
  .object [
    ("name", .string p.name),
    ("annotation", optionToJson TypeSpec.toJson p.declared),
    ("kind", .string p.kind.name),
    ("default", optionToJson Value.toJson p.fallback)]

/-- The JSON data of a signature. -/
def Signature.toJson (s : Signature) : Json :=
  .object [
    ("parameters", .array (s.parameters.map Parameter.toJson)),
    ("returns", optionToJson TypeSpec.toJson s.returns)]

/-! ## 2. Reading -/

namespace Parameter

/-- A parameter of its four fields as written. -/
def ofFields? (depth : Nat) (name declared kind fallback : Option Written) : Option Parameter :=
  match name, kind with
  | some (.string pieces), some kind =>
    match Written.text? pieces,
      Record.optional? (TypeSpec.ofWritten? depth false) declared,
      Record.name? ParameterKind.ofName? depth false kind,
      Record.optional? (fun w => (w.meaning? depth).map Value.ofJson) fallback with
    | some name, some declared, some kind, some fallback =>
      some ⟨name, declared, kind, fallback⟩
    | _, _, _, _ => none
  | _, _ => none

/-- The parameter written in a JSON text. -/
def ofWritten? : (depth : Nat) → Written → Option Parameter
  | depth + 1, .array [name, declared, kind, fallback] =>
    ofFields? depth (some name) (some declared) (some kind) (some fallback)
  | depth + 1, .object members =>
    match Record.members? ["name", "annotation", "kind", "default"] [] members with
    | some found =>
      ofFields? depth (found.lookup "name") (found.lookup "annotation") (found.lookup "kind")
        (found.lookup "default")
    | none => none
  | _, _ => none

/-- The parameters written in an array. -/
def listOfWritten? : (depth : Nat) → Written → Option (List Parameter)
  | depth + 1, .array items => items.mapM (ofWritten? depth)
  | _, _ => none

end Parameter

namespace Signature

/-- A signature of its two fields as written. -/
def ofFields? (depth : Nat) (parameters returns : Option Written) : Option Signature :=
  match parameters with
  | none => none
  | some parameters =>
    match Parameter.listOfWritten? depth parameters,
      Record.optional? (TypeSpec.ofWritten? depth false) returns with
    | some parameters, some returns => some ⟨parameters, returns⟩
    | _, _ => none

/-- The signature written in a JSON text, when at most `depth` containers may nest. -/
def ofWritten? : (depth : Nat) → Written → Option Signature
  | depth + 1, .array [parameters, returns] => ofFields? depth (some parameters) (some returns)
  | depth + 1, .object members =>
    match Record.members? ["parameters", "returns"] [] members with
    | some found => ofFields? depth (found.lookup "parameters") (found.lookup "returns")
    | none => none
  | _, _ => none

/-- The signature written in a JSON text. -/
def read? (text : String) : Option Signature :=
  (Written.read? text.toList).bind (ofWritten? Written.depthLimit)

end Signature

end MethodGuard
