import BoundSql.Dict
import BoundSql.Operator
import BoundSql.Value

/-!
# Expressions

The tree of an SQL expression. Each node has its sources, the subtrees it is made of, in order.
`Expr.fold` is the one recursion over whole trees: what it computes for a node depends on the node
and on what it computed for the sources (`fold_eq`). `Expr.induction` is the matching principle of
proof.
-/

namespace BoundSql

/-- What a call is written with besides its arguments. -/
structure CallHead where
  /-- The kind of call, by which dialects change it. -/
  name : String
  /-- The SQL function, for templates that mention one. -/
  function : Option String
  template : String
  /-- The text between the arguments. -/
  joiner : String
  /-- Further texts the template may mention. -/
  extra : Dict String
  /-- The declared number of arguments; without one any number is right. -/
  arity : Option UInt64
  /-- The declared type of the result. -/
  type : Option SqlType
deriving DecidableEq

/-- The kinds of aggregate functions. -/
inductive AggregateKind where
  | count
  | sum
  | avg
  | min
  | max
  | stdDev
  | variance
deriving DecidableEq, Repr

/-- The direction of a sort key. -/
inductive SortDirection where
  | ascending
  | descending
deriving DecidableEq, Repr

/-- Where NULL sorts; what is not stated is left to the dialect. -/
inductive NullPlacement where
  | unspecified
  | first
  | last
deriving DecidableEq, Repr

/-- An SQL expression. -/
inductive Expr where
  /-- A path of field names, not resolved yet. -/
  | field (path : String)
  /-- A column of a table known by an alias. -/
  | column (tableAlias name : String) (type : Option SqlType)
  /-- A computed column of the query, by its name. -/
  | ref (name : String) (source : Expr)
  /-- A constant, always bound as a parameter. -/
  | literal (value : Value) (type : Option SqlType)
  /-- All columns, as in `COUNT(*)`. -/
  | star
  /-- Arithmetic on two operands. -/
  | arith (left : Expr) (op : ArithOp) (right : Expr) (type : Option SqlType)
  /-- A call written through a template. -/
  | call (head : CallHead) (args : List Expr)
  /-- An aggregate function over its source. -/
  | aggregate (kind : AggregateKind) (head : CallHead) (args : List Expr)
      (distinct summary : Bool)
  /-- A sort key. -/
  | sorted (source : Expr) (direction : SortDirection) (nulls : NullPlacement)
  /-- A comparison of two values. -/
  | compare (left : Expr) (op : CompareOp) (right : Expr)
  /-- A conjunction or disjunction of any number of predicates, negated or not. -/
  | logic (connective : Connective) (parts : List Expr) (negated : Bool)
  /-- An expression with a declared type. -/
  | typed (source : Expr) (type : SqlType)
deriving Inhabited

namespace AggregateKind

/-- All aggregate kinds. -/
def all : List AggregateKind := [.count, .sum, .avg, .min, .max, .stdDev, .variance]

/-- The name used in descriptions. -/
def name : AggregateKind → String
  | .count => "count"
  | .sum => "sum"
  | .avg => "avg"
  | .min => "min"
  | .max => "max"
  | .stdDev => "std_dev"
  | .variance => "variance"

/-- The kind with the given name. -/
def ofName? (s : String) : Option AggregateKind :=
  all.find? (·.name == s)

/-- The kind of an aggregate is read back from its name. -/
theorem ofName?_name (k : AggregateKind) : ofName? k.name = some k := by
  cases k <;> decide

/-- The name used in messages, and by which dialects change the aggregate. -/
def label : AggregateKind → String
  | .count => "Count"
  | .sum => "Sum"
  | .avg => "Avg"
  | .min => "Min"
  | .max => "Max"
  | .stdDev => "StdDev"
  | .variance => "Variance"

/-- The SQL function. -/
def function : AggregateKind → String
  | .count => "COUNT"
  | .sum => "SUM"
  | .avg => "AVG"
  | .min => "MIN"
  | .max => "MAX"
  | .stdDev => "STDDEV_POP"
  | .variance => "VAR_POP"

/-- Whether the aggregate has a form over distinct values. -/
def allowsDistinct : AggregateKind → Bool
  | .count | .sum | .avg => true
  | _ => false

end AggregateKind

namespace SortDirection

/-- The name used in descriptions. -/
def name : SortDirection → String
  | .ascending => "ascending"
  | .descending => "descending"

/-- The direction with the given name. -/
def ofName? (s : String) : Option SortDirection :=
  [SortDirection.ascending, .descending].find? (·.name == s)

/-- A sort direction is read back from its name. -/
theorem ofName?_name (d : SortDirection) : ofName? d.name = some d := by
  cases d <;> decide

/-- The keyword of the direction. -/
def keyword : SortDirection → String
  | .ascending => "ASC"
  | .descending => "DESC"

/-- The other direction. -/
def reversed : SortDirection → SortDirection
  | .ascending => .descending
  | .descending => .ascending

end SortDirection

namespace NullPlacement

/-- The name used in descriptions. -/
def name : NullPlacement → String
  | .unspecified => "default"
  | .first => "first"
  | .last => "last"

/-- The placement with the given name. -/
def ofName? (s : String) : Option NullPlacement :=
  [NullPlacement.unspecified, .first, .last].find? (·.name == s)

/-- A placement of nulls is read back from its name. -/
theorem ofName?_name (p : NullPlacement) : ofName? p.name = some p := by
  cases p <;> decide

/-- The other end; a placement left to the dialect stays so. -/
def reversed : NullPlacement → NullPlacement
  | .unspecified => .unspecified
  | .first => .last
  | .last => .first

end NullPlacement

namespace Expr

/-- The subtrees a node is made of, in order. -/
def sources : Expr → List Expr
  | .field _ | .column .. | .literal .. | .star => []
  | .ref _ source | .sorted source _ _ | .typed source _ => [source]
  | .arith left _ right _ | .compare left _ right => [left, right]
  | .call _ args | .aggregate _ _ args _ _ => args
  | .logic _ parts _ => parts

/-- The kind of a node, by which dialects change its rendering and messages name it. -/
def kind : Expr → String
  | .field _ => "FieldRef"
  | .column .. => "Col"
  | .ref .. => "Ref"
  | .literal .. => "Literal"
  | .star => "Star"
  | .arith .. => "CombinedExpression"
  | .call head _ => head.name
  | .aggregate kind .. => kind.label
  | .sorted .. => "OrderBy"
  | .compare .. => "Comparison"
  | .logic .. => "WhereNode"
  | .typed .. => "ExpressionWrapper"

/-- Whether the node itself is an aggregate. -/
def isAggregate : Expr → Bool
  | .aggregate .. => true
  | _ => false

variable {α : Type}

mutual

/-- The value of a tree, given the value of a node from the node and the values of its sources. -/
def fold (f : Expr → List α → α) : Expr → α
  | .field path => f (.field path) []
  | .column tableAlias name type => f (.column tableAlias name type) []
  | .ref name source => f (.ref name source) [source.fold f]
  | .literal value type => f (.literal value type) []
  | .star => f .star []
  | .arith left op right type => f (.arith left op right type) [left.fold f, right.fold f]
  | .call head args => f (.call head args) (foldList f args)
  | .aggregate kind head args distinct summary =>
    f (.aggregate kind head args distinct summary) (foldList f args)
  | .sorted source direction nulls => f (.sorted source direction nulls) [source.fold f]
  | .compare left op right => f (.compare left op right) [left.fold f, right.fold f]
  | .logic connective parts negated => f (.logic connective parts negated) (foldList f parts)
  | .typed source type => f (.typed source type) [source.fold f]

/-- The values of the trees in a list. -/
def foldList (f : Expr → List α → α) : List Expr → List α
  | [] => []
  | e :: rest => e.fold f :: foldList f rest

end

/-- A list of trees is folded tree by tree. -/
theorem foldList_eq_map (f : Expr → List α → α) (es : List Expr) :
    foldList f es = es.map (fold f) := by
  induction es with
  | nil => rfl
  | cons e rest ih => simp [foldList, ih]

/-- The value of a tree is the value of its node over the values of the sources. -/
theorem fold_eq (f : Expr → List α → α) (e : Expr) :
    e.fold f = f e (e.sources.map (fold f)) := by
  cases e <;> simp [fold, sources, foldList_eq_map]

/-- What holds of a node whenever it holds of the sources holds of every tree. -/
theorem induction {P : Expr → Prop} (node : ∀ e, (∀ s ∈ e.sources, P s) → P e) (e : Expr) : P e :=
  Expr.rec (motive_1 := P) (motive_2 := fun es => ∀ s ∈ es, P s)
    (fun _ => node _ (by simp [sources]))
    (fun _ _ _ => node _ (by simp [sources]))
    (fun _ _ h => node _ (by simpa [sources] using h))
    (fun _ _ => node _ (by simp [sources]))
    (node _ (by simp [sources]))
    (fun _ _ _ _ hl hr => node _ (by simpa [sources] using ⟨hl, hr⟩))
    (fun _ _ h => node _ (by simpa [sources] using h))
    (fun _ _ _ _ _ h => node _ (by simpa [sources] using h))
    (fun _ _ _ h => node _ (by simpa [sources] using h))
    (fun _ _ _ hl hr => node _ (by simpa [sources] using ⟨hl, hr⟩))
    (fun _ _ _ h => node _ (by simpa [sources] using h))
    (fun _ _ h => node _ (by simpa [sources] using h))
    (by simp)
    (fun _ _ h hs => by simpa using ⟨h, hs⟩)
    e

end Expr

end BoundSql
