import BoundSql.Description.Expr
import BoundSql.Select.Operations

/-!
# Descriptions of queries

A query as one description: a table and the operations to apply to it, each kind in its turn.
-/

namespace BoundSql

/-- A described query. -/
structure QueryDescription where
  table : String
  /-- The select list. -/
  columns : List Expr
  /-- Computed columns by name. -/
  computed : List (String × Expr)
  /-- Predicates of the rows to keep. -/
  keep : List Expr
  /-- Predicates of the rows to drop. -/
  drop : List Expr
  order : List Expr
  /-- Aggregates over all rows by name. -/
  summary : List (String × Expr)

/-- Why a described query cannot be built, with the step that fails where it has a name. -/
structure BuildFailure where
  step : Option String
  cause : Error
deriving DecidableEq, Repr

namespace QueryDescription

/-- A named expression. -/
def namedOfJson? (j : Json) : Option (String × Expr) := do
  match ← j.record? ["alias", "expr"] with
  | [name, e] => return (← name.required >>= Json.string?, ← e.required >>= Expr.ofJson?)
  | _ => none

/-- The query that a description stands for. Lists that are not given are empty. -/
def ofJson? (j : Json) : Option QueryDescription := do
  let names := ["table", "values", "annotate", "filter", "exclude", "order_by", "aggregate"]
  match ← j.record? names with
  | [table, columns, computed, keep, drop, order, summary] =>
    return {
      table := ← table.required >>= Json.string?
      columns := ← columns.withDefault [] (Json.listOf? Expr.ofJson?)
      computed := ← computed.withDefault [] (Json.listOf? namedOfJson?)
      keep := ← keep.withDefault [] (Json.listOf? Expr.ofJson?)
      drop := ← drop.withDefault [] (Json.listOf? Expr.ofJson?)
      order := ← order.withDefault [] (Json.listOf? Expr.ofJson?)
      summary := ← summary.withDefault [] (Json.listOf? namedOfJson?) }
  | _ => none

/-- The operations that build the query, with the names of those that failures report. -/
def operations (d : QueryDescription) : List (Option String × Select.Operation) :=
  (if d.columns.isEmpty then [] else [(none, .setColumns d.columns)]) ++
    d.computed.map (fun (name, e) => (some s!"Failed to annotate '{name}'", .annotate name e)) ++
    d.keep.map (fun p => (some "Failed to add filter", .filter p)) ++
    d.drop.map (fun p => (some "Failed to add exclude", .exclude p)) ++
    [(none, .orderBy d.order)] ++
    d.summary.map (fun (name, e) => (some s!"Failed to aggregate '{name}'", .summarize name e))

/-- The query after an operation that has to succeed. -/
def perform (s : Select) (step : Option String × Select.Operation) :
    Except BuildFailure Select :=
  match step.2.action.on s with
  | (.ok _, s) => .ok s
  | (.error cause, _) => .error ⟨step.1, cause⟩

/-- Builds the query over a catalog. -/
def build (catalog : Catalog) (d : QueryDescription) : Except BuildFailure Select := do
  let s ← (Select.ofTable catalog d.table).mapError (⟨none, ·⟩)
  d.operations.foldlM perform s

end QueryDescription

end BoundSql
