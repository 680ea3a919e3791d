import BoundSql.Expr.Aggregation

/-!
# Predicates and their clauses

Negating predicates, taking conjunctions apart, and the clause that a predicate belongs into: one on
single rows goes into WHERE, and one on whole groups into HAVING.
-/

namespace BoundSql

namespace Expr

/-- The negation of a predicate. A compound one has its own negation toggled. -/
def negate : Expr → Expr
  | .logic connective parts negated => .logic connective parts (!negated)
  | e => .logic .and [e] true

mutual

/-- The predicates whose conjunction the predicate is: those of all parts of a conjunction that is
not negated, and any other predicate itself. -/
def conjuncts : Expr → List Expr
  | .logic .and parts false => conjunctsList parts
  | e => [e]

/-- The conjuncts of all predicates in a list. -/
def conjunctsList : List Expr → List Expr
  | [] => []
  | e :: rest => e.conjuncts ++ conjunctsList rest

end

/-- The conjuncts of several predicates are those of each of them, in order. -/
theorem conjunctsList_eq_flatMap (es : List Expr) : conjunctsList es = es.flatMap conjuncts := by
  induction es with
  | nil => rfl
  | cons e rest ih => simp [conjunctsList, ih]

end Expr

/-- The clause a predicate belongs into. -/
inductive Clause where
  /-- WHERE, for predicates on rows. -/
  | beforeGrouping
  /-- HAVING, for predicates on groups. -/
  | afterGrouping
deriving DecidableEq, Repr

/-- The clause of a predicate in a query with the given aggregates. -/
def Clause.ofPredicate (existing : Dict Expr) (p : Expr) : Clause :=
  if (p.findAggregate? existing).isSome || p.containsAggregate then .afterGrouping
  else .beforeGrouping

end BoundSql
