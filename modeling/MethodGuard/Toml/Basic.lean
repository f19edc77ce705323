/-
# TOML tables, and how a document fills them

A document is a table.  Its headers and its dotted keys make further tables, and which of them may
still be extended depends on how a table came to be: one that only a longer header implied may get
its own header once, one made by dotted keys may get more dotted keys, and a table with a header
or an inline table is closed to both.  `Node.Origin` remembers that, and `update` is the one walk
along a path that respects it.
-/

namespace MethodGuard

namespace Toml

/-- How a table came to be. -/
inductive Origin where
  /-- By its own header, or as the document itself. -/
  | header
  /-- By a longer header. -/
  | implied
  /-- By dotted keys. -/
  | dotted
  /-- Between braces. -/
  | inline
  deriving DecidableEq

/-- What a key stands for.  Numbers and dates matter to no reader of this library, so they are
only known to be there. -/
inductive Node where
  | string (s : String)
  | boolean (b : Bool)
  | number
  | dateTime
  | array (items : List Node)
  | table (origin : Origin) (entries : List (String × Node))
  | tables (elements : List (List (String × Node)))

/-- The entries of a table. -/
abbrev Entries := List (String × Node)

/-- The entries with the node under a known key replaced. -/
def replace (key : String) (node : Node) (entries : Entries) : Entries :=
  entries.map fun entry => if entry.1 = key then (key, node) else entry

/-- Change the table at the end of a path by `change`, which is told how that table came to be.
Tables missing on the way are made, by dotted keys or by a header. -/
def update (byDots : Bool) (change : Origin → Entries → Option Entries) :
    (path : List String) → (here : Origin) → Entries → Option Entries
  | [], here, entries => change here entries
  | key :: path, _, entries =>
    match entries.lookup key with
    | none =>
      let origin : Origin := if byDots then .dotted else .implied
      (update byDots change path origin []).map fun inner => entries ++ [(key, .table origin inner)]
    | some (.table origin inner) =>
      if origin = .inline || (byDots && origin == .header) then none
      else
        (update byDots change path origin inner).map fun inner' =>
          replace key (.table origin inner') entries
    | some (.tables elements) =>
      match elements.reverse with
      | [] => none
      | last :: before =>
        (update byDots change path .header last).map fun last' =>
          replace key (.tables (last' :: before).reverse) entries
    | some _ => none

/-- Add a key that is not there yet; at the end of dots the table must have been made by dots. -/
def addKey (dots : Bool) (key : String) (node : Node) (here : Origin) (entries : Entries) :
    Option Entries :=
  if dots && !(here == .dotted) then none
  else if (entries.lookup key).isSome then none
  else some (entries ++ [(key, node)])

/-- Give a table its header. -/
def openTable (key : String) (entries : Entries) : Option Entries :=
  match entries.lookup key with
  | none => some (entries ++ [(key, .table .header [])])
  | some (.table .implied inner) => some (replace key (.table .header inner) entries)
  | some _ => none

/-- Start a further element of an array of tables. -/
def openElement (key : String) (entries : Entries) : Option Entries :=
  match entries.lookup key with
  | none => some (entries ++ [(key, .tables [[]])])
  | some (.tables elements) => some (replace key (.tables (elements ++ [[]])) entries)
  | some _ => none

end Toml

end MethodGuard
