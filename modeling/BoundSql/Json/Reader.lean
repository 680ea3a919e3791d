import BoundSql.Json.Token

/-!
# Reading JSON

Builds the value of JSON text from its tokens, one at a time. The reader keeps the arrays and
objects that are open, innermost first, and what has to come next.
-/

namespace BoundSql.Json

/-- How deep arrays and objects may stand in one another where they are read. -/
def nestingLimit : Nat := 127

namespace Reader

/-- An open array or object. -/
inductive Frame where
  /-- An array with its items so far, last first. -/
  | array (items : List Json)
  /-- An object with its members so far, last first, and the name of the next; a name is missing
  where it holds half of a surrogate pair. -/
  | object (members : List (Option String × Json)) (name : Option String)

/-- What has to come next. -/
inductive Expected where
  | value
  /-- A value, or the end of an array without items. -/
  | firstItem
  | name
  /-- A name, or the end of an object without members. -/
  | firstName
  | colon
  /-- A comma, or the end of the array or object. -/
  | separator
  /-- Nothing: the value is complete. -/
  | done (j : Json)

/-- The reader between two tokens. -/
structure State where
  frames : List Frame
  expected : Expected

/-- The value of a frame at the given depth. -/
def Frame.toJson (depth : Nat) (frame : Frame) : Json :=
  if nestingLimit < depth then .unusable
  else match frame with
    | .array items => .array items.reverse
    | .object members _ =>
      match members.reverse.mapM fun (name, j) => name.map (·, j) with
      | some members => .object members
      | none => .unusable

/-- Puts a value where it belongs: into the innermost frame, or as the value of the text. -/
def put (j : Json) : List Frame → State
  | [] => ⟨[], .done j⟩
  | .array items :: rest => ⟨.array (j :: items) :: rest, .separator⟩
  | .object members name :: rest => ⟨.object ((name, j) :: members) none :: rest, .separator⟩

/-- Closes the innermost frame and puts its value where it belongs. -/
def close (frame : Frame) (rest : List Frame) : State :=
  put (frame.toJson (rest.length + 1)) rest

/-- Reads the first token of a value. -/
def stepValue (frames : List Frame) : Token → Option State
  | .scalar j => some (put j frames)
  | .string s => some (put ((s.map Json.string).getD .unusable) frames)
  | .openArray => some ⟨.array [] :: frames, .firstItem⟩
  | .openObject => some ⟨.object [] none :: frames, .firstName⟩
  | _ => none

/-- Reads a token. -/
def step : State → Token → Option State
  | ⟨.array items :: rest, .firstItem⟩, .closeArray
  | ⟨.array items :: rest, .separator⟩, .closeArray => some (close (.array items) rest)
  | ⟨.array items :: rest, .separator⟩, .comma => some ⟨.array items :: rest, .value⟩
  | ⟨.object members name :: rest, .firstName⟩, .closeObject
  | ⟨.object members name :: rest, .separator⟩, .closeObject =>
    some (close (.object members name) rest)
  | ⟨.object members name :: rest, .separator⟩, .comma =>
    some ⟨.object members name :: rest, .name⟩
  | ⟨.object members _ :: rest, .firstName⟩, .string name
  | ⟨.object members _ :: rest, .name⟩, .string name => some ⟨.object members name :: rest, .colon⟩
  | ⟨frames, .colon⟩, .colon => some ⟨frames, .value⟩
  | ⟨frames, .value⟩, token | ⟨frames, .firstItem⟩, token => stepValue frames token
  | _, _ => none

end Reader

/-- The value of a JSON text; none if it is not well formed. -/
def read? (text : String) : Option Json := do
  let state ← (← Token.ofString? text).foldlM Reader.step ⟨[], .value⟩
  match state.expected with
  | .done j => return j
  | _ => none

end BoundSql.Json
