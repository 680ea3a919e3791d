import BoundSql.Rendering
import BoundSql.Select.Basic

/-!
# Statements

A query as an SQL statement. When a computed column or a group condition aggregates, the statement
groups by every column that it uses outside of aggregates.
-/

namespace BoundSql.Select

/-- All columns of the base table. -/
def baseColumns (s : Select) : List Expr :=
  s.table.columns.map fun column => .column s.baseAlias column.store (some column.type)

/-- The select list, where an empty one stands for all columns. -/
def selectList (s : Select) : List Expr :=
  if s.columns.isEmpty then s.baseColumns else s.columns

/-- Whether the query gives groups of rows. A summary is one group without keys. -/
def isGrouped (s : Select) : Bool :=
  s.summary.isEmpty && (s.computed.any (·.2.containsAggregate) || !s.groupConditions.isEmpty)

/-- The columns that the statement uses outside of aggregates, each once. -/
def groupKeys (s : Select) : List Expr :=
  let used := s.selectList ++ s.computed.map (·.2) ++ s.groupConditions ++ s.order
  (used.flatMap Expr.bareColumns).eraseDups

/-- The columns to group by, if the query is grouped. -/
def groupBy (s : Select) : Option (List Expr) :=
  if s.isGrouped then some s.groupKeys else none

/-- An expression under a name. -/
def renderNamed (r : Renderer) (named : String × Expr) : Except Error Fragment :=
  return (← r.render named.2).mapSql (· ++ " AS " ++ r.dialect.quoteName named.1)

/-- What the statement selects: columns and computed columns, or else the summary. -/
def renderSelected (s : Select) (r : Renderer) : Except Error Fragment := do
  if s.summary.isEmpty then
    let columns ← s.selectList.mapM r.render
    let computed ← s.computed.mapM (renderNamed r)
    return Fragment.join ", " (columns ++ computed)
  else return Fragment.join ", " (← s.summary.mapM (renderNamed r))

/-- The base table and its joins. -/
def renderTables (s : Select) (r : Renderer) : String :=
  " ".intercalate (r.dialect.quoteName s.table.store :: s.joins.map (Join.render r.dialect))

/-- A clause, or nothing when there is nothing in it. -/
def renderClause (r : Renderer) (keyword separator : String) (es : List Expr) :
    Except Error Fragment :=
  if es.isEmpty then .ok (.raw "")
  else return (← r.renderList separator es).mapSql (" " ++ keyword ++ " " ++ ·)

/-- The query as a statement. -/
def render (s : Select) (r : Renderer) : Except Error Fragment := do
  let selected ← s.renderSelected r
  let conditions ← renderClause r "WHERE" " AND " s.conditions
  let groups ← renderClause r "GROUP BY" ", " (s.groupBy.getD [])
  let groupConditions ← renderClause r "HAVING" " AND " s.groupConditions
  let order ← renderClause r "ORDER BY" ", " (if s.summary.isEmpty then s.order else [])
  return Fragment.join "" [.raw "SELECT ", selected, .raw (" FROM " ++ s.renderTables r),
    conditions, groups, groupConditions, order]

end BoundSql.Select
