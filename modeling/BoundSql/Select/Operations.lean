import BoundSql.Clause
import BoundSql.Expr.Functions
import BoundSql.Select.Resolution

/-!
# Building queries

The operations that a query is built by. Each resolves its expressions against the query as it is,
so that it sees the computed columns added before.
-/

namespace BoundSql.Select

/-- Adds a computed column under a new name. -/
def annotate (name : String) (e : Expr) : Action Unit := do
  let s ← get
  if (s.table.column? name).isSome then throw (.nameOfField name)
  if s.computed.any (·.1 == name) then throw (.nameTaken name)
  let resolved ← resolve {} e
  modify fun s => { s with computed := s.computed ++ [(name, resolved)] }

/-- Adds a resolved predicate to the clause it belongs into. -/
def place (p : Expr) : Action Clause := do
  let s ← get
  let clause := Clause.ofPredicate s.existingAggregates p
  match clause with
  | .beforeGrouping => set { s with conditions := s.conditions ++ [p] }
  | .afterGrouping => set { s with groupConditions := s.groupConditions ++ [p] }
  return clause

/-- Keeps the rows of a predicate. Its conjuncts go to their clauses one by one. -/
def filter (p : Expr) : Action (List Clause) := do
  (← resolve {} p).conjuncts.mapM place

/-- Drops the rows of a predicate. The negation goes to its clause as a whole. -/
def exclude (p : Expr) : Action Clause := do
  place (← resolve {} p).negate

/-- Replaces the select list. -/
def setColumns (es : List Expr) : Action Unit := do
  let columns ← es.mapM (resolve {})
  modify ({ · with columns })

/-- The expression as a sort key, ascending unless it says otherwise. -/
def sortKey : Expr → Expr
  | .sorted source direction nulls => .sorted source direction nulls
  | e => e.sortedBy .ascending

/-- Adds sort keys, one by one. -/
def orderBy (es : List Expr) : Action Unit :=
  es.forM fun e => do
    let resolved ← resolve {} e
    modify fun s => { s with order := s.order ++ [sortKey resolved] }

/-- Adds an aggregate over all rows. -/
def summarize (name : String) (e : Expr) : Action Unit := do
  let resolved ← resolve { summarize := true } e
  modify fun s => { s with summary := s.summary ++ [(name, resolved)] }

/-- An operation on a query, with all it is given. -/
inductive Operation where
  | annotate (name : String) (e : Expr)
  | filter (p : Expr)
  | exclude (p : Expr)
  | setColumns (es : List Expr)
  | orderBy (es : List Expr)
  | summarize (name : String) (e : Expr)
  /-- Resolves an expression without storing it; the joins it needs are made. -/
  | resolve (mode : Resolution) (e : Expr)

/-- What an operation does to a query, less its answer. -/
def Operation.action : Operation → Action Unit
  | .annotate name e => Select.annotate name e
  | .filter p => discard (Select.filter p)
  | .exclude p => discard (Select.exclude p)
  | .setColumns es => Select.setColumns es
  | .orderBy es => Select.orderBy es
  | .summarize name e => Select.summarize name e
  | .resolve mode e => discard (Select.resolve mode e)

/-- The query after operations, whether they succeed or fail. -/
def after (s : Select) (operations : List Operation) : Select :=
  operations.foldl (fun s operation => (operation.action.on s).2) s

end BoundSql.Select
