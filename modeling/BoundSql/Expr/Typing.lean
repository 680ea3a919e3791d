import BoundSql.Dialect
import BoundSql.Error
import BoundSql.Expr.Basic

/-!
# Types of expressions

`Expr.type?` infers the type of an expression. No type means that it is not known, as for a bare
NULL or an unresolved field; an error means that the parts do not go together unless a type is
declared.

What a store answers for an expression is not always of the expression's type: the count of no rows
may come as NULL, a float as a whole number, a truth value as 0 or 1. `Expr.coerce` reads it as a value
of the type.
-/

namespace BoundSql

/-- The type of an operator's result. An operand without a type takes that of the other. -/
def ArithOp.resultType (op : ArithOp) : Option SqlType → Option SqlType →
    Except Error (Option SqlType)
  | some left, some right =>
    match op.common? left right with
    | some type => .ok (some type)
    | none => .error (.operandTypes op left right)
  | left, none => .ok left
  | none, right => .ok right

/-- A value fetched for an aggregate: no count is the count 0, and whole numbers become floats
where floats are expected. -/
def AggregateKind.coerce (kind : AggregateKind) (type : Except Error (Option SqlType)) :
    Value → Value
  | .null => if kind = .count then .integer 0 else .null
  | .integer n =>
    match type with
    | .ok (some .float) => .float n.toFloat
    | _ => .integer n
  | value => value

namespace Expr

/-- The single source of an aggregate. -/
def onlySource (kind : AggregateKind) : List Expr → Except Error Expr
  | [source] => .ok source
  | args => .error (.sourceCount kind.label 1 args.length)

mutual

/-- The type of an expression, if it is known. A declared type is taken as it is. -/
def type? : Expr → Except Error (Option SqlType)
  | .field _ | .star | .sorted .. => .ok none
  | .column _ _ type => .ok type
  | .ref _ source => source.type?
  | .literal value type => .ok (type <|> value.type?)
  | .arith left op right declared =>
    match declared with
    | some type => .ok (some type)
    | none => do op.resultType (← left.type?) (← right.type?)
  | .call head args =>
    match head.type with
    | some type => .ok (some type)
    | none => sharedType none args
  | .aggregate kind head args _ _ =>
    match head.type with
    | some type => .ok (some type)
    | none =>
      match kind with
      | .count => .ok (some .bigInteger)
      | .stdDev | .variance => .ok (some .float)
      | .avg => do
        match ← sourceType kind args with
        | some .decimal => return some .decimal
        | _ => return some .float
      | .sum | .min | .max => sourceType kind args
  | .compare .. | .logic .. => .ok (some .boolean)
  | .typed _ type => .ok (some type)

/-- The one type of all expressions of a list that have a type, given that of those before. -/
def sharedType : Option SqlType → List Expr → Except Error (Option SqlType)
  | found, [] => .ok found
  | found, e :: rest => do
    match found, ← e.type? with
    | found, none => sharedType found rest
    | none, some type => sharedType (some type) rest
    | some first, some type =>
      if first = type then sharedType (some first) rest else .error (.mixedTypes first type)

/-- The type of the single source of an aggregate. -/
def sourceType (kind : AggregateKind) : List Expr → Except Error (Option SqlType)
  | [source] => source.type?
  | args => .error (.sourceCount kind.label 1 args.length)

end

/-- A value fetched for a column of a truth type, where the dialect has none, is read as one. -/
def coerceBoolean (dialect : Dialect) (type : Option SqlType) : Value → Value
  | .integer n =>
    if type = some .boolean ∧ ¬ dialect.hasNativeBoolean then .boolean (n != 0) else .integer n
  | value => value

/-- A value fetched for the expression, as a value of the expression's type. -/
def coerce (dialect : Dialect) : Expr → Value → Value
  | .aggregate kind head args distinct summary, value =>
    kind.coerce (type? (.aggregate kind head args distinct summary)) value
  | .ref _ source, value | .typed source _, value => source.coerce dialect value
  | .column _ _ type, value => coerceBoolean dialect type value
  | _, value => value

end Expr

end BoundSql
