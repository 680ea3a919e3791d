import BoundSql.Description.Value
import BoundSql.Schema.Catalog

/-!
# Descriptions of catalogs

The JSON forms of tables and catalogs, and reading them back.
-/

namespace BoundSql

namespace Relation

/-- The description of a relation's target. -/
def toJson (r : Relation) : Json :=
  .object [("to_table", .string r.table), ("to_column", .string r.column)]

/-- The target of a relation that a description stands for. -/
def ofJson? (j : Json) : Option Relation := do
  match ← j.record? ["to_table", "to_column"] with
  | [table, column] =>
    return ⟨← table.required >>= Json.string?, ← column.required >>= Json.string?⟩
  | _ => none

end Relation

namespace Column

/-- The description of a column. -/
def toJson (c : Column) : Json :=
  .object [
    ("name", .string c.name),
    ("column", .string c.store),
    ("data_type", c.type.toJson),
    ("nullable", .boolean c.nullable),
    ("relation", .ofOption Relation.toJson c.relation)]

/-- The relation of a column, where `null` is none. -/
def relationOfJson? : Json → Option (Option Relation)
  | .null => some none
  | j => (Relation.ofJson? j).map some

/-- The column that a description stands for. One that does not say otherwise is not nullable and
has no relation. -/
def ofJson? (j : Json) : Option Column := do
  match ← j.record? ["name", "column", "data_type", "nullable", "relation"] with
  | [name, store, type, nullable, relation] =>
    return {
      name := ← name.required >>= Json.string?
      store := ← store.required >>= Json.string?
      type := ← type.required >>= SqlType.ofJson?
      nullable := ← nullable.withDefault false Json.boolean?
      relation := ← relation.withDefault none relationOfJson? }
  | _ => none

end Column

namespace Table

/-- The description of a table. -/
def toJson (t : Table) : Json :=
  .object [
    ("table_name", .string t.name),
    ("db_table", .string t.store),
    ("columns", .array (t.columns.map Column.toJson))]

/-- The table that a description stands for. -/
def ofJson? (j : Json) : Option Table := do
  match ← j.record? ["table_name", "db_table", "columns"] with
  | [name, store, columns] =>
    return {
      name := ← name.required >>= Json.string?
      store := ← store.required >>= Json.string?
      columns := ← columns.required >>= Json.listOf? Column.ofJson? }
  | _ => none

end Table

namespace Catalog

/-- The description of a catalog. -/
def toJson (c : Catalog) : Json :=
  .object [("tables", .object (c.tables.entries.map fun (key, t) => (key, t.toJson)))]

/-- The catalog that a description stands for; of two tables under one key the later counts. -/
def ofJson? (j : Json) : Option Catalog := do
  match ← j.record? ["tables"] with
  | [tables] =>
    let entries ← (← tables.required >>= Json.members?).mapM fun (key, j) =>
      (Table.ofJson? j).map (key, ·)
    return ⟨.ofList entries⟩
  | _ => none

end Catalog

end BoundSql
