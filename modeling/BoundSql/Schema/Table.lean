import BoundSql.SqlType

/-!
# Tables

A table as expressions see it: fields with a name, a type and the column that stores them, and
relations, the fields that point at another table.
-/

namespace BoundSql

/-- What can be wrong with a schema. -/
inductive SchemaError where
  | tableExists (table : String)
  | columnExists (table column : String)
  /-- A relation points at a table that is not there. -/
  | unknownTarget (table column target : String)
  /-- A relation points at a column that its table does not store. -/
  | unknownTargetColumn (table column target targetColumn : String)
deriving DecidableEq, Repr

/-- The wording of an error. -/
def SchemaError.message : SchemaError → String
  | .tableExists table => s!"Table '{table}' already exists"
  | .columnExists table column => s!"Column '{column}' already exists in table '{table}'"
  | .unknownTarget table column target =>
    s!"Relation '{table}.{column}' points at unknown table '{target}'"
  | .unknownTargetColumn table column target targetColumn =>
    s!"Relation '{table}.{column}' points at unknown column '{target}.{targetColumn}'"

/-- What a relation points at. -/
structure Relation where
  /-- The name of the table in the catalog. -/
  table : String
  /-- The store name of the column. -/
  column : String
deriving DecidableEq, Repr

/-- A field of a table. -/
structure Column where
  /-- The name in paths. -/
  name : String
  /-- The name in the store. -/
  store : String
  type : SqlType
  nullable : Bool
  relation : Option Relation
deriving DecidableEq, Repr

namespace Column

/-- A field stored under its own name. -/
def plain (name : String) (type : SqlType) : Column :=
  ⟨name, name, type, false, none⟩

/-- A relation, stored as the identifier of its target. -/
def foreignKey (name : String) (target : Relation) : Column :=
  ⟨name, name ++ "_id", .integer, false, some target⟩

end Column

/-- A table of the store. -/
structure Table where
  /-- The name in the catalog. -/
  name : String
  /-- The name in the store. -/
  store : String
  columns : List Column
deriving DecidableEq, Repr

namespace Table

/-- The field of the given name. -/
def column? (t : Table) (name : String) : Option Column :=
  t.columns.find? (·.name == name)

/-- The names of all fields. -/
def columnNames (t : Table) : List String :=
  t.columns.map (·.name)

/-- The table with one more field, whose name has to be new. -/
def addColumn (t : Table) (column : Column) : Except SchemaError Table :=
  if (t.column? column.name).isSome then .error (.columnExists t.name column.name)
  else .ok { t with columns := t.columns ++ [column] }

end Table

end BoundSql
