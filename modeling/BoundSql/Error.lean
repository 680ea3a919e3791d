import BoundSql.Operator

/-!
# What can go wrong with an expression

`Error` lists the causes for which building, resolving or rendering an expression fails;
`Error.message` is the only place that words them.
-/

namespace BoundSql

/-- Why an expression cannot be built, resolved or rendered. -/
inductive Error where
  /-- A node holds another number of sources than its kind takes. -/
  | sourceCount (node : String) (expected actual : Nat)
  /-- A path names no field of the table it reached. -/
  | unknownField (path : String) (choices : List String)
  /-- A path crosses a segment that is a field without a relation. -/
  | notRelation (path segment : String)
  /-- A path crosses a relation where no join may be made. -/
  | joinForbidden (path : String)
  /-- An operator has no result type for these operands. -/
  | operandTypes (op : ArithOp) (left right : SqlType)
  /-- The arguments of a call have two types. -/
  | mixedTypes (first second : SqlType)
  /-- A call was given another number of arguments than it was declared with. -/
  | argumentCount (function : String) (expected given : Nat)
  /-- A call was given fewer arguments than its function takes. -/
  | tooFewArguments (function : String) (least : Nat)
  /-- The aggregate has no form over distinct values. -/
  | distinctForbidden (aggregate : String)
  /-- Distinct rows cannot be counted through the star. -/
  | distinctStar
  /-- A computed column would hide a field of the table. -/
  | nameOfField (name : String)
  /-- A computed column of that name is there already. -/
  | nameTaken (name : String)
  /-- The source of an aggregate aggregates itself. -/
  | nestedAggregate (function source : String)
  /-- A summary has to aggregate. -/
  | notAggregate (expr : String)
  /-- A template names a key that has no text. -/
  | unknownKey (template key : String)
  /-- The dialect has no rendering of the node. -/
  | unsupported (node vendor : String)
  /-- A field path was not resolved before rendering. -/
  | unresolved (path : String)
  /-- The catalog has no table of that name. -/
  | unknownTable (name : String)
deriving DecidableEq, Repr

namespace Error

/-- The wording of an error. -/
def message : Error → String
  | .sourceCount node expected actual =>
    s!"{node} expects {expected} source expressions, got {actual}"
  | .unknownField path choices =>
    s!"Cannot resolve keyword '{path}' into field. Choices are: " ++ ", ".intercalate choices
  | .notRelation path segment =>
    s!"Cannot resolve keyword '{path}' into field. Choices are: '{segment}' is not a relation"
  | .joinForbidden path =>
    s!"Joined field references are not permitted in this query: '{path}'"
  | .operandTypes op left right =>
    s!"Cannot infer type of '{op.symbol}' expression involving these types: " ++
      s!"{left.name}, {right.name}. You must set output_field."
  | .mixedTypes first second =>
    s!"Expression contains mixed types: {first.name}, {second.name}. You must set output_field."
  | .argumentCount function expected given =>
    let plural := if expected = 1 then "" else "s"
    s!"'{function}' takes exactly {expected} argument{plural} ({given} given)"
  | .tooFewArguments function least => s!"{function} must take at least {least} expressions"
  | .distinctForbidden aggregate => s!"{aggregate} does not allow distinct."
  | .distinctStar => "Star cannot be used with distinct."
  | .nameOfField name => s!"The annotation '{name}' conflicts with a field on the model."
  | .nameTaken name => s!"The annotation '{name}' is already defined."
  | .nestedAggregate function source =>
    s!"Cannot compute {function}('{source}'): '{source}' is an aggregate"
  | .notAggregate expr => s!"'{expr}' is not an aggregate expression"
  | .unknownKey template key => s!"Template '{template}' references unknown key '{key}'"
  | .unsupported node vendor => s!"{node} is not supported on {vendor}"
  | .unresolved path => s!"Field reference '{path}' must be resolved before compiling"
  | .unknownTable name => s!"Unknown table: {name}"

end Error

end BoundSql
