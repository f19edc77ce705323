/-
# JSON data and its written form

`Json` is what a JSON text means: its strings are texts, its numbers are integers or binary64
numbers, its objects list their members in the order of the text.  `Json.write` gives the compact
text of such data, with no blanks, escaping only what a JSON string cannot hold.
-/
import MethodGuard.Number.FloatText
import MethodGuard.Text.Hexadecimal

namespace MethodGuard

/-- What a JSON text means. -/
inductive Json where
  | null
  | boolean (b : Bool)
  | integer (n : Int)
  | float (d : Double)
  | string (s : String)
  | array (items : List Json)
  | object (members : List (String × Json))

namespace Json

instance : Inhabited Json := ⟨.null⟩

/-! ## 1. Strings -/

/-- One character inside a JSON string. -/
def escape (c : Char) : List Char :=
  if c = '"' then ['\\', '"']
  else if c = '\\' then ['\\', '\\']
  else if c = '\n' then ['\\', 'n']
  else if c = '\r' then ['\\', 'r']
  else if c = '\t' then ['\\', 't']
  else if c = '\x08' then ['\\', 'b']
  else if c = '\x0c' then ['\\', 'f']
  else if c.toNat < 32 then '\\' :: 'u' :: Hexadecimal.padded 4 c.toNat
  else [c]

/-- A string in double quotes. -/
def writeString (s : String) : List Char := '"' :: (s.toList.flatMap escape ++ ['"'])

/-! ## 2. Values -/

/-- The text of a number; what is no finite number is written as `null`. -/
def writeFloat (d : Double) : List Char :=
  if d.isFinite then (FloatFormat.json.render d).toList else "null".toList

mutual

/-- The compact text of JSON data. -/
def write : Json → List Char
  | .null => "null".toList
  | .boolean true => "true".toList
  | .boolean false => "false".toList
  | .integer n => (toString n).toList
  | .float d => writeFloat d
  | .string s => writeString s
  | .array [] => ['[', ']']
  | .array (item :: rest) => '[' :: (item.write ++ writeItems rest)
  | .object [] => ['\x7b', '\x7d']
  | .object ((key, value) :: rest) =>
    '\x7b' :: (writeString key ++ ':' :: (value.write ++ writeMembers rest))

/-- The items after the first, and the end of the array. -/
def writeItems : List Json → List Char
  | [] => [']']
  | item :: rest => ',' :: (item.write ++ writeItems rest)

/-- The members after the first, and the end of the object. -/
def writeMembers : List (String × Json) → List Char
  | [] => ['\x7d']
  | (key, value) :: rest => ',' :: (writeString key ++ ':' :: (value.write ++ writeMembers rest))

end

/-- The compact text of JSON data. -/
def text (j : Json) : String := String.ofList j.write

/-! ## 3. Objects by key -/

/-- Put a member where its key belongs in the byte order of keys; a known key takes the new
value. -/
def insertMember (key : String) (value : Json) : List (String × Json) → List (String × Json)
  | [] => [(key, value)]
  | (k, v) :: rest =>
    if key < k then (key, value) :: (k, v) :: rest
    else if key = k then (k, value) :: rest
    else (k, v) :: insertMember key value rest

mutual

/-- The same data with the members of every object in byte order, the last of a repeated key
winning. -/
def sorted : Json → Json
  | .array items => .array (sortedItems items)
  | .object members => .object (sortedMembers [] members)
  | j => j

/-- Every item with its objects sorted. -/
def sortedItems : List Json → List Json
  | [] => []
  | item :: rest => item.sorted :: sortedItems rest

/-- The members added to those sorted so far. -/
def sortedMembers (done : List (String × Json)) : List (String × Json) → List (String × Json)
  | [] => done
  | (key, value) :: rest => sortedMembers (insertMember key value.sorted done) rest

end

end Json

end MethodGuard
