import BoundSql.Expr.Basic

/-!
# Equality of expressions

Two expressions are equal when their trees are, node by node. Literals compare as values do, so an
expression with a NaN in it differs even from itself.
-/

namespace BoundSql.Expr

mutual

/-- Equality of trees. -/
def equal : Expr → Expr → Bool
  | .field a, .field b => a == b
  | .column tableAlias name type, .column tableAlias' name' type' =>
    tableAlias == tableAlias' && name == name' && type == type'
  | .ref name source, .ref name' source' => name == name' && source.equal source'
  | .literal value type, .literal value' type' => value.equal value' && type == type'
  | .star, .star => true
  | .arith left op right type, .arith left' op' right' type' =>
    left.equal left' && op == op' && right.equal right' && type == type'
  | .call head args, .call head' args' => head == head' && equalList args args'
  | .aggregate kind head args distinct summary, .aggregate kind' head' args' distinct' summary' =>
    kind == kind' && head == head' && equalList args args' && distinct == distinct' &&
      summary == summary'
  | .sorted source direction nulls, .sorted source' direction' nulls' =>
    source.equal source' && direction == direction' && nulls == nulls'
  | .compare left op right, .compare left' op' right' =>
    left.equal left' && op == op' && right.equal right'
  | .logic connective parts negated, .logic connective' parts' negated' =>
    connective == connective' && equalList parts parts' && negated == negated'
  | .typed source type, .typed source' type' => source.equal source' && type == type'
  | _, _ => false

/-- Equality of lists of trees. -/
def equalList : List Expr → List Expr → Bool
  | [], [] => true
  | e :: rest, e' :: rest' => e.equal e' && equalList rest rest'
  | _, _ => false

end

instance : BEq Expr := ⟨equal⟩

end BoundSql.Expr
