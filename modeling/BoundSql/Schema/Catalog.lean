import BoundSql.Dict
import BoundSql.Schema.Table

/-!
# Catalogs

The tables that paths can reach. A catalog is valid when every relation points at a table of the
catalog and a column that the table stores; otherwise the first violation is reported, in the order
of the tables' names and then of their columns.
-/

namespace BoundSql

/-- Tables by name. -/
structure Catalog where
  tables : Dict Table

namespace Catalog

/-- The catalog without tables. -/
def empty : Catalog := ⟨∅⟩

/-- The table registered under a name. -/
def table? (c : Catalog) (name : String) : Option Table :=
  c.tables.get? name

/-- The catalog with one more table, whose name has to be new. -/
def add (c : Catalog) (t : Table) : Except SchemaError Catalog :=
  if c.tables.contains t.name then .error (.tableExists t.name)
  else .ok ⟨c.tables.insert t.name t⟩

/-- The tables in the order of their names. -/
def list (c : Catalog) : List Table :=
  c.tables.values.mergeSort fun t t' => t.name ≤ t'.name

/-- What is wrong with the relation of a column, if anything. -/
def violationOf? (c : Catalog) (t : Table) (column : Column) : Option SchemaError :=
  match column.relation with
  | none => none
  | some relation =>
    match c.table? relation.table with
    | none => some (.unknownTarget t.name column.name relation.table)
    | some target =>
      if target.columns.any (·.store == relation.column) then none
      else some (.unknownTargetColumn t.name column.name relation.table relation.column)

/-- The first violation of the catalog. -/
def violation? (c : Catalog) : Option SchemaError :=
  c.list.findSome? fun t => t.columns.findSome? (c.violationOf? t)

/-- Refuses a catalog with a violation. -/
def validate (c : Catalog) : Except SchemaError Unit :=
  match c.violation? with
  | some error => .error error
  | none => .ok ()

end Catalog

end BoundSql
