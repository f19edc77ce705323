/-
# Reading a JSON text

The tokens of a text are read from left to right by a machine that keeps, in a list, the
containers it is inside of and what it has read of each.  What it expects next is its state; one
`step` takes one token.  A text is read when, at its end, one value has been read and no container
is open.  The machine stops with the last token, so there is nothing to run out of.
-/
import MethodGuard.Json.Token

namespace MethodGuard

namespace Reader

/-! ## 1. States -/

/-- A container part way through: what it holds so far, the latest first. -/
inductive Frame where
  | array (items : List Written)
  | object (members : List (List Piece × Written)) (key : List Piece)

/-- What is expected next. -/
inductive State where
  /-- A value. -/
  | value (frames : List Frame)
  /-- The first item of an array, or its end. -/
  | itemOrEnd (frames : List Frame)
  /-- The first key of an object, or its end. -/
  | keyOrEnd (frames : List Frame)
  /-- A further key of an object. -/
  | key (members : List (List Piece × Written)) (frames : List Frame)
  /-- The colon after a key. -/
  | colon (members : List (List Piece × Written)) (key : List Piece) (frames : List Frame)
  /-- A value has been read: a comma, the end of its container, or the end of the text. -/
  | next (value : Written) (frames : List Frame)

/-! ## 2. Steps -/

/-- The state after the token that starts a value. -/
def start (frames : List Frame) : Token → Option State
  | .null => some (.next .null frames)
  | .boolean b => some (.next (.boolean b) frames)
  | .number n => some (.next (.number n) frames)
  | .string pieces => some (.next (.string pieces) frames)
  | .beginArray => some (.itemOrEnd frames)
  | .beginObject => some (.keyOrEnd frames)
  | _ => none

/-- The state after a token that follows a value inside a container. -/
def continue? (value : Written) : List Frame → Token → Option State
  | .array items :: frames, .comma => some (.value (.array (value :: items) :: frames))
  | .array items :: frames, .endArray => some (.next (.array (value :: items).reverse) frames)
  | .object members key :: frames, .comma => some (.key ((key, value) :: members) frames)
  | .object members key :: frames, .endObject =>
    some (.next (.object ((key, value) :: members).reverse) frames)
  | _, _ => none

/-- The state after a token. -/
def step : State → Token → Option State
  | .value frames, token => start frames token
  | .itemOrEnd frames, .endArray => some (.next (.array []) frames)
  | .itemOrEnd frames, token => start (.array [] :: frames) token
  | .keyOrEnd frames, .endObject => some (.next (.object []) frames)
  | .keyOrEnd frames, .string key => some (.colon [] key frames)
  | .keyOrEnd _, _ => none
  | .key members frames, .string key => some (.colon members key frames)
  | .key _ _, _ => none
  | .colon members key frames, .colon => some (.value (.object members key :: frames))
  | .colon _ _ _, _ => none
  | .next value frames, token => continue? value frames token

/-- The value read when the text ends. -/
def finish : State → Option Written
  | .next value [] => some value
  | _ => none

/-- The state after a sequence of tokens. -/
def run (state : State) : List Token → Option State
  | [] => some state
  | token :: rest =>
    match step state token with
    | some state' => run state' rest
    | none => none

end Reader

/-- The shape of a JSON text. -/
def Written.read? (cs : List Char) : Option Written :=
  match Token.scan cs with
  | none => none
  | some tokens => (Reader.run (.value []) tokens).bind Reader.finish

/-- The meaning of a JSON text. -/
def Json.read? (s : String) : Option Json :=
  (Written.read? s.toList).bind (Written.meaning? Written.depthLimit)

end MethodGuard
