/-
# Reading a TOML document

Values nest, so they are scanned with a budget that the length of the text bounds; how deep arrays
and inline tables may nest is a limit of its own.  A document is a sequence of lines: blank ones,
headers that say which table is filled next, and keys with their values.
-/
import MethodGuard.Toml.Basic
import MethodGuard.Toml.Number

namespace MethodGuard

namespace Toml

/-! ## 1. Values -/

/-- How deep arrays and inline tables may nest. -/
def depthLimit : Nat := 79

/-- The text after blanks, line ends and comments, as they stand between the items of an array. -/
def skipBetween : (fuel : Nat) → List Char → List Char
  | 0, cs => cs
  | fuel + 1, cs =>
    let rest := skipComment (skipBlanks cs)
    match newline? rest with
    | some after => skipBetween fuel after
    | none => skipBlanks cs

mutual

/-- A value. -/
def scanValue : (fuel depth : Nat) → List Char → Option (Node × List Char)
  | 0, _, _ => none
  | fuel + 1, depth, cs =>
    match cs with
    | '[' :: rest =>
      match depth with
      | 0 => none
      | depth' + 1 => scanItems fuel depth' [] rest
    | '\x7b' :: rest =>
      match depth with
      | 0 => none
      | depth' + 1 =>
        match skipBlanks rest with
        | '\x7d' :: after => some (.table .inline [], after)
        | _ => scanPairs fuel depth' [] rest
    | 't' :: 'r' :: 'u' :: 'e' :: rest => some (.boolean true, rest)
    | 'f' :: 'a' :: 'l' :: 's' :: 'e' :: rest => some (.boolean false, rest)
    | '"' :: _ => (scanString cs).map fun found => (.string found.1, found.2)
    | '\'' :: _ => (scanString cs).map fun found => (.string found.1, found.2)
    | _ => (scanDateTime cs).orElse fun _ => scanNumber cs

/-- The items of an array from here on, and its end. -/
def scanItems : (fuel depth : Nat) → (done : List Node) → List Char → Option (Node × List Char)
  | 0, _, _, _ => none
  | fuel + 1, depth, done, cs =>
    match skipBetween cs.length cs with
    | ']' :: rest => some (.array done.reverse, rest)
    | start =>
      match scanValue fuel depth start with
      | none => none
      | some (item, rest) =>
        match skipBetween rest.length rest with
        | ',' :: rest' => scanItems fuel depth (item :: done) rest'
        | ']' :: rest' => some (.array (item :: done).reverse, rest')
        | _ => none

/-- The keys and values of an inline table from here on, and its end. -/
def scanPairs : (fuel depth : Nat) → (done : Entries) → List Char → Option (Node × List Char)
  | 0, _, _, _ => none
  | fuel + 1, depth, done, cs =>
    match scanKey cs with
    | some (parts, '=' :: rest) =>
      match parts.reverse with
      | [] => none
      | key :: path =>
        match scanValue fuel depth (skipBlanks rest) with
        | none => none
        | some (node, after) =>
          match update true (addKey (!path.isEmpty) key node) path.reverse .inline done with
          | none => none
          | some done' =>
            match skipBlanks after with
            | ',' :: after' => scanPairs fuel depth done' after'
            | '\x7d' :: after' => some (.table .inline done', after')
            | _ => none
    | _ => none

end

/-! ## 2. Lines -/

/-- A document so far: the root table and the path of the table that is being filled. -/
structure State where
  root : Entries
  current : List String

/-- A header's table, started. -/
def State.open? (s : State) (element : Bool) (parts : List String) : Option State :=
  match parts.reverse with
  | [] => none
  | key :: path =>
    let start := if element then openElement key else openTable key
    (update false (fun _ entries => start entries) path.reverse .header s.root).map fun root =>
      ⟨root, parts⟩

/-- A key of the table that is being filled, with its value. -/
def State.add? (s : State) (parts : List String) (node : Node) : Option State :=
  match parts.reverse with
  | [] => none
  | key :: path =>
    let add := update true (addKey (!path.isEmpty) key node) path.reverse .header
    (update false (fun _ entries => add entries) s.current .header s.root).map fun root =>
      { s with root := root }

/-- A header between its brackets. -/
def scanHeader (s : State) (element : Bool) (cs : List Char) : Option (State × List Char) :=
  match scanKey cs with
  | none => none
  | some (parts, rest) =>
    let after? :=
      match element, rest with
      | true, ']' :: ']' :: after => some after
      | false, ']' :: after => some after
      | _, _ => none
    match after?, s.open? element parts with
    | some after, some s' => some (s', after)
    | _, _ => none

/-- The lines of a document from here on. -/
def scanLinesFrom : (fuel : Nat) → State → List Char → Option State
  | 0, _, _ => none
  | fuel + 1, s, cs =>
    match skipBlanks cs with
    | [] => some s
    | '[' :: '[' :: rest =>
      match scanHeader s true rest with
      | some (s', after) => (lineEnd? after).bind (scanLinesFrom fuel s')
      | none => none
    | '[' :: rest =>
      match scanHeader s false rest with
      | some (s', after) => (lineEnd? after).bind (scanLinesFrom fuel s')
      | none => none
    | start =>
      match lineEnd? start with
      | some after => scanLinesFrom fuel s after
      | none =>
        match scanKey start with
        | some (parts, '=' :: rest) =>
          match scanValue (2 * rest.length + 2) depthLimit (skipBlanks rest) with
          | some (node, after) =>
            match s.add? parts node, lineEnd? after with
            | some s', some after' => scanLinesFrom fuel s' after'
            | _, _ => none
          | none => none
        | _ => none

/-- The root table of a document; a byte order mark may stand before it. -/
def read? (text : String) : Option Entries :=
  let cs :=
    match text.toList with
    | '\ufeff' :: rest => rest
    | cs => cs
  (scanLinesFrom (cs.length + 1) ⟨[], []⟩ cs).map (·.root)

end Toml

end MethodGuard
