/-
# Running structural checks

A list of checks is run on a class in one of two ways.  `ensure` stops at the first problem and is
what construction relies on; `report` goes through all checks and lists every problem with the
check that found it.  A check that fails without naming a problem counts as passed both ways.
-/
import MethodGuard.Structure.Checks

namespace MethodGuard

/-- Checks, in the order they are run. -/
abbrev Pipeline := List Check

namespace Pipeline

/-- The problems that a check named. -/
def problems : Except (List StructureError) Unit → List StructureError
  | .ok () => []
  | .error errors => errors

/-! ## 1. Stopping at the first problem -/

/-- The first problem of a class, or a record that there is none. -/
def ensure (s : Shape) : Pipeline → Traced (Except StructureError Unit)
  | [] => ⟨.ok (), [.methodsOk s.name]⟩
  | check :: rest =>
    let found := check.run s
    match problems found.value with
    | e :: _ => ⟨.error e, found.events⟩
    | [] => (ensure s rest).after found.events

/-! ## 2. Collecting all problems -/

/-- Every problem with the name of the check that found it. -/
def findings (s : Shape) : Pipeline → Traced (List (String × StructureError))
  | [] => .pure []
  | check :: rest =>
    let found := check.run s
    let more := findings s rest
    ⟨(problems found.value).map (fun e => (check.name, e)) ++ more.value,
      found.events ++ more.events⟩

end Pipeline

/-- Everything that a run of checks has to say about a class. -/
structure Report where
  className : String
  abstractNames : List String
  findings : List (String × StructureError)

/-- The report of checks on a class. -/
def Pipeline.report (checks : Pipeline) (s : Shape) : Traced Report :=
  (checks.findings s).map fun findings => ⟨s.name, s.abstractNames, findings⟩

/-- The checks of a class: the standard ones, then inherited and own ones. -/
def Class.pipeline (c : Class) : Pipeline := Check.standard ++ c.stages.map (·.check)

/-! ## 3. Reading a report -/

namespace Report

/-- Whether no problem was found. -/
def success (r : Report) : Bool := r.findings.isEmpty

/-- Whether the class can have instances. -/
def canInstantiate (r : Report) : Bool := r.success && r.abstractNames.isEmpty

/-- The report in one line. -/
def summary (r : Report) : String :=
  if r.canInstantiate then "✓ '" ++ r.className ++ "' is structurally sound"
  else if r.success then
    "✗ '" ++ r.className ++ "' is abstract (" ++ ", ".intercalate r.abstractNames ++ ")"
  else
    "✗ '" ++ r.className ++ "' failed with " ++ toString r.findings.length ++ " error(s)"

/-- The problems, numbered and with the names of their checks. -/
def detailed (r : Report) : List String :=
  r.findings.zipIdx.map fun found =>
    toString (found.2 + 1) ++ ". [" ++ found.1.1 ++ "] " ++ found.1.2.message

/-- The JSON data of a report; `duration` is the time it took, in milliseconds. -/
def toJson (r : Report) (duration : Nat) : Json :=
  .object [
    ("class", .string r.className),
    ("success", .boolean r.success),
    ("abstract_methods", .array (r.abstractNames.map .string)),
    ("errors", .array (r.findings.map fun found =>
      .array [.string found.1, .string found.2.message])),
    ("duration_ms", .integer duration)]

end Report

end MethodGuard
