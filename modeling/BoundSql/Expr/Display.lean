import BoundSql.Expr.Basic

/-!
# Text of expressions for people

The form of an expression in messages. It is not SQL: calls show their kind, references their
name, and arithmetic shows no parentheses.
-/

namespace BoundSql.Expr

mutual

/-- An expression as messages show it. -/
def display : Expr → String
  | .field path => path
  | .column tableAlias name _ => s!"{tableAlias}.{name}"
  | .ref name _ => name
  | .literal value _ => value.display
  | .star => "*"
  | .arith left op right _ => left.display ++ " " ++ op.symbol ++ " " ++ right.display
  | .call head args => head.name ++ "(" ++ ", ".intercalate (displayList args) ++ ")"
  | .aggregate kind _ args distinct _ =>
    kind.label ++ "(" ++ (if distinct then "DISTINCT " else "") ++
      ", ".intercalate (displayList args) ++ ")"
  | .sorted source direction _ => source.display ++ " " ++ direction.keyword
  | .compare left op right => left.display ++ " " ++ op.symbol ++ " " ++ right.display
  | .logic connective parts negated =>
    (if negated then "NOT (" else "(") ++
      s!" {connective.keyword} ".intercalate (displayList parts) ++ ")"
  | .typed source _ => source.display

/-- The expressions of a list as messages show them. -/
def displayList : List Expr → List String
  | [] => []
  | e :: rest => e.display :: displayList rest

end

end BoundSql.Expr
