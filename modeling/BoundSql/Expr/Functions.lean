import BoundSql.Expr.Sources
import BoundSql.Expr.Typing

/-!
# Building expressions

The functions and aggregates that every dialect has, declared types, and sort keys.
-/

namespace BoundSql

namespace CallHead

/-- A call of an SQL function, written `function(argument, …)`. -/
def ofFunction (function : String) : CallHead where
  name := function
  function := some function
  template := "%(function)s(%(expressions)s)"
  joiner := ", "
  extra := ∅
  arity := none
  type := none

/-- A call of an SQL function of one argument, under a kind of its own. -/
def unary (name function : String) (type : Option SqlType) : CallHead :=
  { ofFunction function with name, arity := some 1, type }

/-- A call of an SQL function of any number of arguments, under a kind of its own. -/
def variadic (name function : String) (type : Option SqlType) : CallHead :=
  { ofFunction function with name, type }

/-- The call of an aggregate function. The key `distinct` stands for the keyword of its form over
distinct values, or for nothing. -/
def ofAggregate (kind : AggregateKind) : CallHead :=
  { ofFunction kind.function with
    name := kind.label
    template := "%(function)s(%(distinct)s%(expressions)s)"
    extra := (∅ : Dict String).insert "distinct" ""
    arity := some 1 }

/-- The call with its number of arguments declared, which has to be the number it has. -/
def declareArity (head : CallHead) (given : Nat) (arity : UInt64) : Except Error CallHead :=
  if given = arity.toNat then .ok { head with arity := some arity }
  else .error (.argumentCount head.name arity.toNat given)

end CallHead

namespace Expr

/-- The expression in lower case. -/
def lower (e : Expr) : Expr :=
  .call (.unary "Lower" "LOWER" (some .text)) [e]

/-- The expression in upper case. -/
def upper (e : Expr) : Expr :=
  .call (.unary "Upper" "UPPER" (some .text)) [e]

/-- The number of characters. -/
def length (e : Expr) : Expr :=
  .call (.unary "Length" "LENGTH" (some .integer)) [e]

/-- The absolute value. -/
def abs (e : Expr) : Expr :=
  .call (.unary "Abs" "ABS" none) [e]

/-- The expression cast to a type. -/
def cast (e : Expr) (type : SqlType) : Expr :=
  let head := CallHead.unary "Cast" "CAST" (some type)
  .call { head with template := "%(function)s(%(expressions)s AS %(db_type)s)" } [e]

/-- The time of the statement. -/
def now : Expr :=
  .call { CallHead.ofFunction "CURRENT_TIMESTAMP" with
    name := "Now"
    template := "CURRENT_TIMESTAMP"
    arity := some 0
    type := some .dateTime } []

/-- A call that takes two or more arguments. -/
def atLeastTwo (head : CallHead) (args : List Expr) : Except Error Expr :=
  if args.length < 2 then .error (.tooFewArguments head.name 2) else .ok (.call head args)

/-- The first argument that is not NULL. -/
def coalesce : List Expr → Except Error Expr :=
  atLeastTwo (.variadic "Coalesce" "COALESCE" none)

/-- The arguments as texts, one after the other. -/
def concat : List Expr → Except Error Expr :=
  atLeastTwo (.variadic "Concat" "CONCAT" (some .text))

/-- The greatest argument. -/
def greatest : List Expr → Except Error Expr :=
  atLeastTwo (.variadic "Greatest" "GREATEST" none)

/-- The least argument. -/
def least : List Expr → Except Error Expr :=
  atLeastTwo (.variadic "Least" "LEAST" none)

/-- An aggregate over an expression. -/
def aggregateOf (kind : AggregateKind) (e : Expr) : Expr :=
  .aggregate kind (.ofAggregate kind) [e] false false

/-- The aggregate over distinct values, where it has such a form. -/
def distinctAggregate (kind : AggregateKind) (head : CallHead) (args : List Expr)
    (summary : Bool) : Except Error Expr := do
  if kind.allowsDistinct then
    match ← onlySource kind args with
    | .star => throw .distinctStar
    | _ =>
      let head := { head with extra := head.extra.insert "distinct" "DISTINCT " }
      return .aggregate kind head args true summary
  else throw (.distinctForbidden kind.label)

/-- The expression with a declared type. A node with a type of its own takes it over. -/
def withType (type : SqlType) : Expr → Expr
  | .arith left op right _ => .arith left op right (some type)
  | .call head args => .call { head with type := some type } args
  | .aggregate kind head args distinct summary =>
    .aggregate kind { head with type := some type } args distinct summary
  | .literal value _ => .literal value (some type)
  | e => .typed e type

/-- The expression as a sort key of the given direction. A sort key keeps its placement of NULL. -/
def sortedBy (direction : SortDirection) : Expr → Expr
  | .sorted source _ nulls => .sorted source direction nulls
  | e => .sorted e direction .unspecified

/-- The opposite sort key; any other expression stays as it is. -/
def reverseOrder : Expr → Expr
  | .sorted source direction nulls => .sorted source direction.reversed nulls.reversed
  | e => e

end Expr

end BoundSql
