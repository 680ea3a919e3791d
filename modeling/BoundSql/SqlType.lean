/-!
# Types of SQL values

The types an expression can be given, with the names they are written by and the classes that
arithmetic distinguishes.
-/

namespace BoundSql

/-- The type of the value an expression stands for. -/
inductive SqlType where
  | boolean
  | integer
  | bigInteger
  | float
  | decimal
  | text
  | date
  | dateTime
  | duration
deriving DecidableEq, Repr

namespace SqlType

/-- All types, in declaration order. -/
def all : List SqlType :=
  [.boolean, .integer, .bigInteger, .float, .decimal, .text, .date, .dateTime, .duration]

/-- The list of types leaves none out. -/
theorem mem_all (t : SqlType) : t ∈ all := by
  cases t <;> decide

/-- The name a type is written by in descriptions and messages. -/
def name : SqlType → String
  | .boolean => "boolean"
  | .integer => "integer"
  | .bigInteger => "big_integer"
  | .float => "float"
  | .decimal => "decimal"
  | .text => "text"
  | .date => "date"
  | .dateTime => "date_time"
  | .duration => "duration"

/-- The type with the given name; letter case and blanks count. -/
def ofName? (s : String) : Option SqlType :=
  all.find? (·.name == s)

/-- What is said of a name that no type has. -/
def unknownName (s : String) : String :=
  "Unknown data type: " ++ s

/-- A type is read back from its name. -/
theorem ofName?_name (t : SqlType) : ofName? t.name = some t := by
  cases t <;> decide

/-- Whether values of the type are whole numbers. -/
def isInteger : SqlType → Bool
  | .integer | .bigInteger => true
  | _ => false

/-- Whether values of the type are numbers. -/
def isNumeric : SqlType → Bool
  | .float | .decimal => true
  | t => t.isInteger

/-- Whether values of the type are points in time. -/
def isTemporal : SqlType → Bool
  | .date | .dateTime => true
  | _ => false

end SqlType

end BoundSql
