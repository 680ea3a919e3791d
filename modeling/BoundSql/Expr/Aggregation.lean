import BoundSql.Expr.Equality

/-!
# Aggregates in expressions

Which expressions aggregate, where they use an aggregate that a query computes already, and which
columns they leave outside of aggregates.
-/

namespace BoundSql.Expr

/-- Whether an aggregate stands anywhere in the tree. -/
def containsAggregate : Expr → Bool :=
  fold fun e found => e.isAggregate || found.any id

/-- An aggregate in a tree is its root, or lies in one of the root's sources. -/
theorem containsAggregate_eq (e : Expr) :
    e.containsAggregate = (e.isAggregate || e.sources.any containsAggregate) := by
  rw [containsAggregate, fold_eq, List.any_map]
  rfl

/-- A place in a tree that uses an aggregate of the query. -/
structure AggregateUse where
  /-- The name of the computed column. -/
  name : String
  /-- The positions among the sources that lead from the root to the place. -/
  path : List Nat
deriving DecidableEq, Repr

/-- The name under which a node itself uses one of the aggregates: that of a reference to one, or
the least name of one equal to the node. -/
def usedAggregate? (existing : Dict Expr) : Expr → Option String
  | .ref name source =>
    if source.containsAggregate && existing.contains name then some name else none
  | .aggregate kind head args distinct summary =>
    (existing.entries.find? fun entry =>
      entry.2 == .aggregate kind head args distinct summary).map (·.1)
  | _ => none

/-- The first use found in a list of sources, from the position of the first one on. -/
def firstUse : Nat → List (Option AggregateUse) → Option AggregateUse
  | _, [] => none
  | position, some use :: _ => some { use with path := position :: use.path }
  | position, none :: rest => firstUse (position + 1) rest

/-- The first place in a tree, nodes before their sources and leftmost first, that uses one of the
aggregates. -/
def findAggregate? (existing : Dict Expr) : Expr → Option AggregateUse :=
  fold fun e uses =>
    match e.usedAggregate? existing with
    | some name => some ⟨name, []⟩
    | none => firstUse 0 uses

/-- The search looks at the root first, then through the sources in order. -/
theorem findAggregate?_eq (existing : Dict Expr) (e : Expr) :
    e.findAggregate? existing =
      match e.usedAggregate? existing with
      | some name => some ⟨name, []⟩
      | none => firstUse 0 (e.sources.map (findAggregate? existing)) := by
  rw [findAggregate?, fold_eq]

/-- The columns and unresolved fields of a tree that stand under no aggregate, in order. -/
def bareColumns : Expr → List Expr :=
  fold fun e columns =>
    match e with
    | .column .. | .field _ => [e]
    | .aggregate .. => []
    | _ => columns.flatten

end BoundSql.Expr
