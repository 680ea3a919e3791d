import BoundSql.Dialect

/-!
# Joins

The joins of a statement. Each follows one relation from a table that is joined already.
-/

namespace BoundSql

/-- Whether a join keeps the rows without a partner. -/
inductive JoinKind where
  | inner
  | leftOuter
deriving DecidableEq, Repr

/-- The keywords of a kind of join. -/
def JoinKind.keywords : JoinKind → String
  | .inner => "INNER JOIN"
  | .leftOuter => "LEFT OUTER JOIN"

/-- A joined table and the condition it is joined on. -/
structure Join where
  kind : JoinKind
  /-- The name of the joined table in the catalog. -/
  table : String
  /-- The name of the joined table in the store. -/
  store : String
  /-- The alias the joined table is known by. -/
  tableAlias : String
  /-- The alias of the table that the relation starts from. -/
  parent : String
  /-- The column of the parent that holds the key. -/
  parentColumn : String
  /-- The column of the joined table that the key points at. -/
  targetColumn : String
deriving DecidableEq, Repr

namespace Join

/-- Whether two joins follow one relation from one parent, whatever their aliases and kinds. -/
def isEquivalent (j j' : Join) : Bool :=
  j.table == j'.table && j.parent == j'.parent && j.parentColumn == j'.parentColumn &&
    j.targetColumn == j'.targetColumn

/-- Whether the columns of the joined table may be NULL for want of a partner. -/
def nullable (j : Join) : Bool :=
  j.kind == .leftOuter

/-- The join as SQL. -/
def render (dialect : Dialect) (j : Join) : String :=
  let quote := dialect.quoteName
  let table :=
    if j.tableAlias = j.store then quote j.store else quote j.store ++ " " ++ quote j.tableAlias
  j.kind.keywords ++ " " ++ table ++ " ON (" ++
    quote j.parent ++ "." ++ quote j.parentColumn ++ " = " ++
    quote j.tableAlias ++ "." ++ quote j.targetColumn ++ ")"

end Join

end BoundSql
