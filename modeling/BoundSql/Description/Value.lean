import BoundSql.Dialect
import BoundSql.Json.Record
import BoundSql.Value

/-!
# Descriptions of values and types

The JSON forms of types, dialects and values, and reading them back.
-/

namespace BoundSql

/-- A type is described by its name. -/
def SqlType.toJson (t : SqlType) : Json :=
  .string t.name

/-- The type that a description names. -/
def SqlType.ofJson? (j : Json) : Option SqlType := do
  SqlType.ofName? (← j.bareVariant?)

/-- A type is read back from its description. -/
theorem SqlType.ofJson?_toJson (t : SqlType) : SqlType.ofJson? t.toJson = some t :=
  SqlType.ofName?_name t

/-- A dialect is described by its short name. -/
def Dialect.toJson (d : Dialect) : Json :=
  .string d.name

/-- The dialect that a description names. -/
def Dialect.ofJson? (j : Json) : Option Dialect := do
  Dialect.ofName? (← j.bareVariant?)

/-- A dialect is read back from its description. -/
theorem Dialect.ofJson?_toJson (d : Dialect) : Dialect.ofJson? d.toJson = some d :=
  Dialect.ofName?_name d

namespace Value

/-- A value is described by what kind it is and its content. A float that is not finite has no
number in JSON and is described by `null`, which does not read back. -/
def toJson : Value → Json
  | .null => .string "Null"
  | .boolean b => .object [("Boolean", .boolean b)]
  | .integer n => .object [("Integer", .integer n.toInt)]
  | .float x => .object [("Float", if x.isFinite then .float x else .null)]
  | .decimal digits => .object [("Decimal", .string digits)]
  | .text s => .object [("String", .string s)]

/-- The value that a description stands for. -/
def ofJson? (j : Json) : Option Value := do
  match ← j.variant? with
  | ("Null", none) | ("Null", some .null) => return .null
  | ("Boolean", some content) => return .boolean (← content.boolean?)
  | ("Integer", some content) => return .integer (← content.int64?)
  | ("Float", some content) => return .float (← content.float?)
  | ("Decimal", some content) => return .decimal (← content.string?)
  | ("String", some content) => return .text (← content.string?)
  | _ => none

end Value

end BoundSql
