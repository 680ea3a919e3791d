import BoundSql.Error
import BoundSql.Expr.Basic

/-!
# Sources of a node

How many sources a node takes, and putting others in their place. A node that was read from a
description can hold any number of sources; `checkArity` says whether it is the right one. Relabelling
puts the sources of all nodes in their places again, and moves the columns from tables known by some
aliases to others.
-/

namespace BoundSql.Expr

/-- The number of sources a node takes. -/
def arity : Expr → Nat
  | .call head args => (head.arity.map UInt64.toNat).getD args.length
  | .aggregate .. => 1
  | e => e.sources.length

/-- Refuses a number of sources that the node does not take. -/
def expectSources (e : Expr) (count : Nat) : Except Error Unit :=
  if count = e.arity then .ok () else .error (.sourceCount e.kind e.arity count)

/-- Refuses a node that holds another number of sources than it takes. -/
def checkArity (e : Expr) : Except Error Unit :=
  e.expectSources e.sources.length

/-- The node over other sources. Too few or too many leave a node of fixed shape as it is. -/
def replaceSources : Expr → List Expr → Expr
  | .ref name _, [source] => .ref name source
  | .arith _ op _ type, [left, right] => .arith left op right type
  | .call head _, args => .call head args
  | .aggregate kind head _ distinct summary, args => .aggregate kind head args distinct summary
  | .sorted _ direction nulls, [source] => .sorted source direction nulls
  | .compare _ op _, [left, right] => .compare left op right
  | .logic connective _ negated, parts => .logic connective parts negated
  | .typed _ type, [source] => .typed source type
  | e, _ => e

/-- The node over other sources, if it takes as many. -/
def withSources (e : Expr) (sources : List Expr) : Except Error Expr := do
  e.expectSources sources.length
  return e.replaceSources sources

/-- The node over what the actions for its sources give, run in order. -/
def rebuild {m : Type → Type} [Monad m] : Expr → List (m Expr) → m Expr
  | .ref name _, [source] => return .ref name (← source)
  | .arith _ op _ type, [left, right] => return .arith (← left) op (← right) type
  | .call head _, args => return .call head (← args.mapM id)
  | .aggregate kind head _ distinct summary, args =>
    return .aggregate kind head (← args.mapM id) distinct summary
  | .sorted _ direction nulls, [source] => return .sorted (← source) direction nulls
  | .compare _ op _, [left, right] => return .compare (← left) op (← right)
  | .logic connective _ negated, parts => return .logic connective (← parts.mapM id) negated
  | .typed _ type, [source] => return .typed (← source) type
  | e, _ => return e

/-- The node with every source replaced by what `f` gives for it, in order. -/
def mapSourcesM {m : Type → Type} [Monad m] (f : Expr → m Expr) (e : Expr) : m Expr :=
  e.rebuild (e.sources.map f)

/-- The node over relabelled sources, with its own alias renamed. -/
def relabelNode (renames : Dict String) : Expr → List Expr → Expr
  | .column tableAlias name type, _ => .column ((renames.get? tableAlias).getD tableAlias) name type
  | e, sources => e.replaceSources sources

/-- The expression with the alias of every column renamed, once. -/
def relabel (renames : Dict String) : Expr → Expr :=
  fold (relabelNode renames)

/-- A node is relabelled from its relabelled sources. -/
theorem relabel_eq (renames : Dict String) (e : Expr) :
    e.relabel renames = relabelNode renames e (e.sources.map (relabel renames)) :=
  fold_eq _ e

end BoundSql.Expr
