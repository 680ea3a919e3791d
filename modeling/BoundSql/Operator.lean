import BoundSql.SqlType

/-!
# Operators

Arithmetic, comparison and logic operators with the symbols they are written by. For arithmetic,
`ArithOp.common?` is the table of the type two typed operands give.
-/

namespace BoundSql

/-- An arithmetic operator. -/
inductive ArithOp where
  | add
  | sub
  | mul
  | div
  | mod
  | pow
deriving DecidableEq, Repr

/-- A comparison of two values. -/
inductive CompareOp where
  | eq
  | ne
  | lt
  | le
  | gt
  | ge
deriving DecidableEq, Repr

/-- How the parts of a compound predicate are joined. -/
inductive Connective where
  | and
  | or
deriving DecidableEq, Repr

namespace ArithOp

/-- All arithmetic operators. -/
def all : List ArithOp := [.add, .sub, .mul, .div, .mod, .pow]

/-- The name used in descriptions. -/
def name : ArithOp → String
  | .add => "add"
  | .sub => "sub"
  | .mul => "mul"
  | .div => "div"
  | .mod => "mod"
  | .pow => "pow"

/-- The symbol written between the operands. -/
def symbol : ArithOp → String
  | .add => "+"
  | .sub => "-"
  | .mul => "*"
  | .div => "/"
  | .mod => "%"
  | .pow => "^"

/-- The operator with the given name. -/
def ofName? (s : String) : Option ArithOp :=
  all.find? (·.name == s)

/-- An arithmetic operator is read back from its name. -/
theorem ofName?_name (op : ArithOp) : ofName? op.name = some op := by
  cases op <;> decide

/-- The type two numbers give under every operator: the wider of two whole numbers, and the
fractional one of the two; a float and a decimal give none. -/
def numeric? : SqlType → SqlType → Option SqlType
  | .integer, .integer => some .integer
  | .integer, .bigInteger | .bigInteger, .integer | .bigInteger, .bigInteger => some .bigInteger
  | .integer, .float | .bigInteger, .float | .float, .integer | .float, .bigInteger
  | .float, .float => some .float
  | .integer, .decimal | .bigInteger, .decimal | .decimal, .integer | .decimal, .bigInteger
  | .decimal, .decimal => some .decimal
  | _, _ => none

/-- The type that points in time and durations give: a difference of two points is a duration, a
point moved by a duration is a point, and durations add up. -/
def temporal? : ArithOp → SqlType → SqlType → Option SqlType
  | .sub, .date, .date | .sub, .dateTime, .dateTime => some .duration
  | .add, .date, .duration | .add, .dateTime, .duration => some .dateTime
  | .sub, .date, .duration | .sub, .dateTime, .duration => some .dateTime
  | .add, .duration, .date | .add, .duration, .dateTime => some .dateTime
  | .add, .duration, .duration | .sub, .duration, .duration => some .duration
  | _, _, _ => none

/-- The type of the operator's result on operands of two known types, if there is one. -/
def common? (op : ArithOp) (left right : SqlType) : Option SqlType :=
  numeric? left right <|> op.temporal? left right

end ArithOp

namespace CompareOp

/-- All comparison operators. -/
def all : List CompareOp := [.eq, .ne, .lt, .le, .gt, .ge]

/-- The name used in descriptions. -/
def name : CompareOp → String
  | .eq => "eq"
  | .ne => "ne"
  | .lt => "lt"
  | .le => "le"
  | .gt => "gt"
  | .ge => "ge"

/-- The symbol written between the operands. -/
def symbol : CompareOp → String
  | .eq => "="
  | .ne => "<>"
  | .lt => "<"
  | .le => "<="
  | .gt => ">"
  | .ge => ">="

/-- The operator with the given name. -/
def ofName? (s : String) : Option CompareOp :=
  all.find? (·.name == s)

/-- A comparison is read back from its name. -/
theorem ofName?_name (op : CompareOp) : ofName? op.name = some op := by
  cases op <;> decide

end CompareOp

namespace Connective

/-- The name used in descriptions. -/
def name : Connective → String
  | .and => "and"
  | .or => "or"

/-- The keyword written between the parts. -/
def keyword : Connective → String
  | .and => "AND"
  | .or => "OR"

/-- The connective with the given name. -/
def ofName? (s : String) : Option Connective :=
  [Connective.and, .or].find? (·.name == s)

/-- A connective is read back from its name. -/
theorem ofName?_name (c : Connective) : ofName? c.name = some c := by
  cases c <;> decide

end Connective

end BoundSql
