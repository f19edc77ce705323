/-
# Texts of values

A value has two texts.  Its DISPLAY is what results and messages show: numbers plainly, strings
quoted, lists in brackets and maps in braces.  Its INSPECTION names the constructor of every part.
-/
import MethodGuard.Value.Basic
import MethodGuard.Number.FloatText
import MethodGuard.Text.Quoted

namespace MethodGuard

/-- A boolean as a word. -/
def boolText (b : Bool) : String := if b then "true" else "false"

namespace Value

/-! ## 1. Display -/

mutual

/-- The text of a value in results and messages. -/
def display : Value → String
  | .none => "None"
  | .boolean b => boolText b
  | .integer i => toString i.toInt
  | .float d => FloatFormat.plain.render d
  | .string s => quoted s
  | .list items => bracketed (displayItems items)
  | .map entries => braced (displayEntries entries)

/-- The texts of a list's items. -/
def displayItems : List Value → List String
  | [] => []
  | item :: rest => item.display :: displayItems rest

/-- The texts of a map's entries. -/
def displayEntries : List (String × Value) → List String
  | [] => []
  | (key, value) :: rest => (quoted key ++ ": " ++ value.display) :: displayEntries rest

end

/-! ## 2. Inspection -/

mutual

/-- The text of a value with its constructors. -/
def inspect : Value → String
  | .none => "None"
  | .boolean b => "Boolean(" ++ boolText b ++ ")"
  | .integer i => "Integer(" ++ toString i.toInt ++ ")"
  | .float d => "Float(" ++ FloatFormat.inspection.render d ++ ")"
  | .string s => "String(" ++ quoted s ++ ")"
  | .list items => "List(" ++ bracketed (inspectItems items) ++ ")"
  | .map entries => "Map(" ++ braced (inspectEntries entries) ++ ")"

/-- The inspections of a list's items. -/
def inspectItems : List Value → List String
  | [] => []
  | item :: rest => item.inspect :: inspectItems rest

/-- The inspections of a map's entries. -/
def inspectEntries : List (String × Value) → List String
  | [] => []
  | (key, value) :: rest => (quoted key ++ ": " ++ value.inspect) :: inspectEntries rest

end

end Value

end MethodGuard
