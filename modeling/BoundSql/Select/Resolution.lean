import BoundSql.Expr.Display
import BoundSql.Expr.Sources
import BoundSql.Select.Basic

/-!
# Resolution

Binding the field paths of an expression to columns of the query. A path is a chain of relations
and a last field; each relation is a join of the query, shared with every other path that crosses
it from the same table. The first segment can also be a computed column, and hides a field then.

Sources are resolved before their nodes and from left to right.
-/

namespace BoundSql

/-- A dotted path: the relations it crosses, and its last segment. -/
structure FieldPath where
  hops : List String
  last : String
deriving DecidableEq, Repr

namespace FieldPath

/-- The segments of a text between its dots, all but the last and the last. -/
def segments : List Char → List (List Char) × List Char
  | [] => ([], [])
  | c :: rest =>
    match segments rest with
    | (hops, last) =>
      if c = '.' then ([] :: hops, last)
      else match hops with
        | [] => ([], c :: last)
        | hop :: hops => ((c :: hop) :: hops, last)

/-- The path that a text spells. -/
def ofString (s : String) : FieldPath :=
  let (hops, last) := segments s.toList
  ⟨hops.map String.ofList, String.ofList last⟩

/-- All segments. -/
def toList (p : FieldPath) : List String :=
  p.hops ++ [p.last]

/-- The first segment. -/
def first (p : FieldPath) : String :=
  p.hops.head?.getD p.last

end FieldPath

/-- How an expression may be resolved. -/
structure Resolution where
  /-- Whether paths may cross relations. -/
  allowJoins : Bool := true
  /-- The aliases of the joins that may be shared; without a list all may. -/
  reuse : Option (List String) := none
  /-- Whether the expression is an aggregate over all rows. -/
  summarize : Bool := false

/-- Whether a join may be shared. -/
def Resolution.mayReuse (mode : Resolution) (j : Join) : Bool :=
  match mode.reuse with
  | none => true
  | some aliases => aliases.contains j.tableAlias

namespace Select

/-- An alias that no table of the query has: the name of the table itself, or else `T` with the
least free number after the number of tables. One more candidate than there are tables suffices. -/
def freshAlias (s : Select) (store : String) : String :=
  let taken := s.aliases
  if taken.contains store then
    let candidates := (List.range (taken.length + 1)).map fun i => s!"T{taken.length + 1 + i}"
    (candidates.find? (!taken.contains ·)).getD store
  else store

/-- The alias of the table that a join leads to: that of an equivalent join that may be shared, or
else a fresh one for the join, which is added. -/
def join (mode : Resolution) (j : Join) : Action String := do
  let s ← get
  match s.joins.find? fun existing => existing.isEquivalent j && mode.mayReuse existing with
  | some existing => return existing.tableAlias
  | none =>
    let tableAlias := s.freshAlias j.store
    set { s with joins := s.joins ++ [{ j with tableAlias }] }
    return tableAlias

/-- Where a path has come to. -/
structure Place where
  tableAlias : String
  table : Table
  /-- Whether a relation that may be missing was crossed. -/
  nullable : Bool
  /-- Whether no relation was crossed. -/
  atBase : Bool

/-- The start of every path. -/
def start (s : Select) : Place :=
  ⟨s.baseAlias, s.table, false, true⟩

/-- The error of a segment that names nothing, with the names that would have been right. -/
def unknownField (s : Select) (path : String) (place : Place) : Error :=
  let computed := if place.atBase then s.computed.map (·.1) else []
  .unknownField path ((place.table.columnNames ++ computed).mergeSort fun a b => a ≤ b)

/-- The field of a segment at a place of a path. -/
def fieldAt (path : String) (place : Place) (segment : String) : Action Column := do
  match place.table.column? segment with
  | some column => return column
  | none => throw ((← get).unknownField path place)

/-- The join that follows a relation from a place to its target, without an alias yet. -/
def joinFrom (place : Place) (column : Column) (relation : Relation) (target : Table) : Join where
  kind := if place.nullable || column.nullable then .leftOuter else .inner
  table := target.name
  store := target.store
  tableAlias := ""
  parent := place.tableAlias
  parentColumn := column.store
  targetColumn := relation.column

/-- Crosses the relation that a segment names. -/
def hop (mode : Resolution) (path : String) (place : Place) (segment : String) : Action Place := do
  let column ← fieldAt path place segment
  match column.relation with
  | none => throw (.notRelation path segment)
  | some relation =>
    if !mode.allowJoins then throw (.joinForbidden path)
    match (← get).catalog.table? relation.table with
    | none => throw (.unknownTable relation.table)
    | some target =>
      let tableAlias ← join mode (joinFrom place column relation target)
      return ⟨tableAlias, target, place.nullable || column.nullable, false⟩

/-- The expression that a path stands for. -/
def resolveField (mode : Resolution) (path : String) : Action Expr := do
  let s ← get
  let segments := FieldPath.ofString path
  match s.computed.find? (·.1 == segments.first) with
  | some (name, source) =>
    if segments.hops.isEmpty then return .ref name source
    else throw (s.unknownField path s.start)
  | none =>
    let place ← segments.hops.foldlM (hop mode path) s.start
    let column ← fieldAt path place segments.last
    return .column place.tableAlias column.store (some column.type)

/-- Resolves a node, given the resolution of its sources. References are resolved already, and an
aggregate may not aggregate again. -/
def resolveNode (mode : Resolution) (e : Expr) (sources : List (Action Expr)) : Action Expr := do
  ofExcept e.checkArity
  match e with
  | .field path => resolveField mode path
  | .column .. | .ref .. | .literal .. | .star => return e
  | .aggregate kind head args distinct _ =>
    let resolved ← sources.mapM id
    if resolved.any (·.containsAggregate) then
      throw (.nestedAggregate kind.label (", ".intercalate (args.map (·.display))))
    return .aggregate kind head resolved distinct mode.summarize
  | e => e.rebuild sources

/-- Resolves an expression against the query. What summarizes all rows has to aggregate. -/
def resolve (mode : Resolution) (e : Expr) : Action Expr := do
  let resolved ← e.fold (resolveNode mode)
  if mode.summarize && !resolved.containsAggregate then throw (.notAggregate e.display)
  return resolved

end Select

end BoundSql
