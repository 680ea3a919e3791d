import BoundSql.Error
import BoundSql.Expr.Aggregation
import BoundSql.Join
import BoundSql.Schema.Catalog

/-!
# Queries under construction

A `Select` collects resolved expressions over a base table and the joins they need. An
`Select.Action` reads and extends it; when it fails, what it did before stays done.
-/

namespace BoundSql

/-- A query over a base table of a catalog. -/
structure Select where
  catalog : Catalog
  table : Table
  joins : List Join
  /-- Computed columns by name, in the order they were added. -/
  computed : List (String × Expr)
  /-- The select list; an empty one stands for all columns of the base table. -/
  columns : List Expr
  /-- The predicates of WHERE. -/
  conditions : List Expr
  /-- The predicates of HAVING. -/
  groupConditions : List Expr
  /-- The sort keys. -/
  order : List Expr
  /-- Aggregates over all rows by name; a query with any gives a single row. -/
  summary : List (String × Expr)

namespace Select

/-- The query for all rows of a table. -/
def ofTable (catalog : Catalog) (name : String) : Except Error Select :=
  match catalog.table? name with
  | some table => .ok ⟨catalog, table, [], [], [], [], [], [], []⟩
  | none => .error (.unknownTable name)

/-- The alias of the base table. -/
def baseAlias (s : Select) : String :=
  s.table.store

/-- The aliases of all tables of the query, the base table first. -/
def aliases (s : Select) : List String :=
  s.baseAlias :: s.joins.map (·.tableAlias)

/-- The computed columns that aggregate. -/
def existingAggregates (s : Select) : Dict Expr :=
  .ofList (s.computed.filter (·.2.containsAggregate))

/-- A step that reads and extends a query. A failure keeps what was done before it. -/
abbrev Action := ExceptT Error (StateM Select)

/-- The result of a step and the query after it. -/
def Action.on {α : Type} (action : Action α) (s : Select) : Except Error α × Select :=
  action.run.run s

end Select

end BoundSql
