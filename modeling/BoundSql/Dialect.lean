import BoundSql.SqlType

/-!
# Dialects

The three SQL dialects statements are written for, with what differs between them whatever the
expression: quoting of names, names of types, and the representation of truth values.
-/

namespace BoundSql

/-- A dialect of SQL. -/
inductive Dialect where
  | postgres
  | sqlite
  | mysql
deriving DecidableEq, Repr

namespace Dialect

/-- All dialects, in declaration order. -/
def all : List Dialect := [.postgres, .sqlite, .mysql]

/-- The list of dialects leaves none out. -/
theorem mem_all (d : Dialect) : d ∈ all := by
  cases d <;> decide

/-- The short name a dialect is written by in descriptions. -/
def name : Dialect → String
  | .postgres => "postgres"
  | .sqlite => "sqlite"
  | .mysql => "mysql"

/-- The name of the dialect's vendor, used in messages. -/
def vendor : Dialect → String
  | .postgres => "postgresql"
  | .sqlite => "sqlite"
  | .mysql => "mysql"

/-- The dialect with the given short name. -/
def ofName? (s : String) : Option Dialect :=
  all.find? (·.name == s)

/-- A name with its ASCII letters in lower case. -/
def lowerCase (s : String) : String :=
  s.map Char.toLower

/-- The dialect with the given short name or vendor, in any case of the ASCII letters. -/
def ofAnyName? (s : String) : Option Dialect :=
  all.find? fun d => d.name == lowerCase s || d.vendor == lowerCase s

/-- What is said of a name that no dialect has. -/
def unknownName (s : String) : String :=
  "Unknown backend: " ++ lowerCase s

/-- A dialect is read back from its name. -/
theorem ofName?_name (d : Dialect) : ofName? d.name = some d := by
  cases d <;> decide

/-- The character around a quoted name. -/
def quoteChar : Dialect → Char
  | .postgres | .sqlite => '"'
  | .mysql => Char.ofNat 96

/-- A quoted name: the quote character around it, and twice for each one in it. -/
def quoteName (d : Dialect) (s : String) : String :=
  let q := d.quoteChar
  String.ofList (q :: s.toList.flatMap (fun c => if c = q then [q, q] else [c]) ++ [q])

/-- Whether the store answers truth values as such, and not as 0 and 1. -/
def hasNativeBoolean : Dialect → Bool
  | .postgres => true
  | .sqlite | .mysql => false

/-- The name of a type as the target of a cast. -/
def castType : Dialect → SqlType → String
  | .postgres, .boolean => "boolean"
  | .postgres, .integer => "integer"
  | .postgres, .bigInteger => "bigint"
  | .postgres, .float => "double precision"
  | .postgres, .decimal => "numeric"
  | .postgres, .text => "text"
  | .postgres, .date => "date"
  | .postgres, .dateTime => "timestamp with time zone"
  | .postgres, .duration => "interval"
  | .sqlite, .boolean => "bool"
  | .sqlite, .integer => "integer"
  | .sqlite, .bigInteger | .sqlite, .duration => "bigint"
  | .sqlite, .float => "real"
  | .sqlite, .decimal => "decimal"
  | .sqlite, .text => "text"
  | .sqlite, .date => "date"
  | .sqlite, .dateTime => "datetime"
  | .mysql, .boolean | .mysql, .integer | .mysql, .bigInteger | .mysql, .duration =>
    "signed integer"
  | .mysql, .float => "double"
  | .mysql, .decimal => "decimal"
  | .mysql, .text => "char"
  | .mysql, .date => "date"
  | .mysql, .dateTime => "datetime(6)"

end Dialect

end BoundSql
