/-
# The command line

Four commands work on the example classes: one lists them, one checks the structure of a class,
one calls a method of a new instance, and one explains the others.  A run is a function of its
arguments: what it writes to either output, and the exit code.
-/
import MethodGuard.Catalog.Examples
import MethodGuard.Value.Json

namespace MethodGuard

namespace CommandLine

/-- What a run leaves behind. -/
structure Outcome where
  code : Nat
  output : String
  errors : String
  deriving DecidableEq

/-- The version that the usage text shows. -/
def version : String := "0.1.0"

/-- The name of the program. -/
def programName : String := "validating-base"

/-! ## 1. Outcomes -/

/-- Lines, each with its end. -/
def lines (texts : List String) : String := String.join (texts.map (· ++ "\n"))

/-- A run that went well. -/
def succeed (output : List String) : Outcome := ⟨0, lines output, ""⟩

/-- A run that failed with a message. -/
def fail (output : List String) (message : String) : Outcome :=
  ⟨1, lines output, lines ["Error: " ++ message]⟩

/-! ## 2. Texts -/

/-- The explanation of the commands. -/
def usage (program : String) : List String := [
  programName ++ " v" ++ version,
  "",
  "Usage: " ++ program ++ " <command> [options]",
  "",
  "Commands:",
  "  list                              List the example classes",
  "  check <class>                     Run the structural check on a class",
  "  call <class> <method> [json-args] Instantiate a class and call a method",
  "  help                              Show this help message",
  "",
  "Class names may be given without the '" ++ Examples.moduleName ++ ".' prefix.",
  "Arguments are a JSON array of positional values, e.g. '[[1, 2, 3]]'."]

/-- The lines that tell of a class. -/
def classLines (c : Class) : List String :=
  let names (title : String) (set : NameSet) : List String :=
    if set.isEmpty then [] else ["      " ++ title ++ ", ".intercalate set.names]
  ("  • " ++ c.name ++ (if c.isAbstract then " (abstract)" else ""))
    :: (names "prerun validated: " c.prerun ++ names "type validated:   " c.typed)

/-! ## 3. Commands -/

/-- The full name of a class that may be given without its module. -/
def resolveName (r : Registry) (name : String) : String :=
  if r.contains name then name else Examples.qualified name

/-- List the example classes. -/
def list (w : World) : Outcome :=
  succeed (("Example classes (" ++ toString w.registry.size ++ " total):") :: ""
    :: w.registry.toList.flatMap classLines)

/-- Check the structure of a class. -/
def check (w : World) (name : String) : Outcome :=
  match (w.reportNamed (resolveName w.registry name)).value with
  | .error e => fail [] e.chain
  | .ok report =>
    let output := report.summary :: report.detailed.map ("  " ++ ·)
    if report.canInstantiate then succeed output
    else fail output ("'" ++ report.className ++ "' cannot be instantiated")

/-- The positional arguments written in a JSON text, or the message of what is wrong with it. -/
def arguments (json : String) : Except String Arguments :=
  match Value.readSorted? json with
  | none => .error ("parsing arguments '" ++ json ++ "': not a JSON text")
  | some (.list items) => .ok (.ofValues items)
  | some _ => .error ("Arguments must be a JSON array, got '" ++ json ++ "'")

/-- Call a method of a new instance of a class. -/
def call (w : World) (className method json : String) : Outcome :=
  match arguments json with
  | .error message => fail [] message
  | .ok a =>
    match w.instantiateNamed? (resolveName w.registry className) .empty with
    | none => fail [] "calls nest too deep"
    | some made =>
      match made.value with
      | .error e => fail [] e.chain
      | .ok object =>
        match object.call method a with
        | none => fail [] "calls nest too deep"
        | some done =>
          match done.value.1 with
          | .error e => fail [] e.chain
          | .ok value => succeed [value.display]

/-! ## 4. Runs -/

/-- The world with the example classes. -/
def world : World := World.initial.registerExamples.world

/-- A run of the program under a name with arguments. -/
def run (program : String) : List String → Outcome
  | [] => succeed (usage program)
  | "list" :: _ => list world
  | "check" :: name :: _ => check world name
  | "check" :: [] => fail [] "Please specify a class name"
  | "call" :: className :: method :: rest => call world className method (rest.headD "[]")
  | "call" :: _ =>
    ⟨1, "", lines [
      "Usage: " ++ program ++ " call <class> <method> [json-args]",
      "Error: Please specify a class and a method"]⟩
  | "help" :: _ => succeed (usage program)
  | "--help" :: _ => succeed (usage program)
  | "-h" :: _ => succeed (usage program)
  | other :: _ => fail (usage program) ("Unknown command: " ++ other)

end CommandLine

end MethodGuard
