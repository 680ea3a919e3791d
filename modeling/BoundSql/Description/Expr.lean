import BoundSql.Description.Value
import BoundSql.Expr.Basic

/-!
# Descriptions of expressions

The JSON form of expressions: an object whose one member is named for the kind of node and holds
its parts, or the word `star`.
-/

namespace BoundSql

/-- An operator is described by its name. -/
def ArithOp.ofJson? (j : Json) : Option ArithOp := do
  ArithOp.ofName? (← j.bareVariant?)

/-- A comparison is described by its name. -/
def CompareOp.ofJson? (j : Json) : Option CompareOp := do
  CompareOp.ofName? (← j.bareVariant?)

/-- A connective is described by its name. -/
def Connective.ofJson? (j : Json) : Option Connective := do
  Connective.ofName? (← j.bareVariant?)

/-- A kind of aggregate is described by its name. -/
def AggregateKind.ofJson? (j : Json) : Option AggregateKind := do
  AggregateKind.ofName? (← j.bareVariant?)

/-- A direction is described by its name. -/
def SortDirection.ofJson? (j : Json) : Option SortDirection := do
  SortDirection.ofName? (← j.bareVariant?)

/-- A placement of NULL is described by its name. -/
def NullPlacement.ofJson? (j : Json) : Option NullPlacement := do
  NullPlacement.ofName? (← j.bareVariant?)

namespace Dict

/-- A map of texts is described by an object. -/
def toJson (d : Dict String) : Json :=
  .object (d.entries.map fun (key, value) => (key, .string value))

/-- The map of texts that a description stands for; of two entries with one key the later counts. -/
def ofJson? (j : Json) : Option (Dict String) := do
  let entries ← (← j.members?).mapM fun (key, j) => j.string?.map (key, ·)
  return ofList entries

end Dict

namespace CallHead

/-- The names of the parts of a call, the arguments last. -/
def fieldNames : List String :=
  ["name", "function", "template", "arg_joiner", "extra", "arity", "output_field", "args"]

/-- A call with its described arguments. -/
def toJson (head : CallHead) (args : List Json) : Json :=
  .object [
    ("name", .string head.name),
    ("function", .ofOption .string head.function),
    ("template", .string head.template),
    ("arg_joiner", .string head.joiner),
    ("extra", head.extra.toJson),
    ("arity", .ofOption (fun n : UInt64 => .integer n.toNat) head.arity),
    ("output_field", .ofOption SqlType.toJson head.type),
    ("args", .array args)]

/-- A call, with the descriptions of its arguments. -/
def ofJson? (j : Json) : Option (CallHead × List Json) := do
  match ← j.record? fieldNames with
  | [name, function, template, joiner, extra, arity, type, args] =>
    let head : CallHead := {
      name := ← name.required >>= Json.string?
      function := ← function.optional Json.string?
      template := ← template.required >>= Json.string?
      joiner := ← joiner.required >>= Json.string?
      extra := ← extra.required >>= Dict.ofJson?
      arity := ← arity.optional Json.uint64?
      type := ← type.optional SqlType.ofJson? }
    return (head, ← args.required >>= Json.items?)
  | _ => none

end CallHead

namespace Expr

mutual

/-- The description of an expression. -/
def toJson : Expr → Json
  | .field path => .object [("field", .object [("name", .string path)])]
  | .column tableAlias name type =>
    .object [("col", .object [("alias", .string tableAlias), ("column", .string name),
      ("output_field", .ofOption SqlType.toJson type)])]
  | .ref name source =>
    .object [("ref", .object [("alias", .string name), ("source", source.toJson)])]
  | .literal value type =>
    .object [("literal", .object [("value", value.toJson),
      ("output_field", .ofOption SqlType.toJson type)])]
  | .star => .string "star"
  | .arith left op right type =>
    .object [("combined", .object [("lhs", left.toJson), ("op", .string op.name),
      ("rhs", right.toJson), ("output_field", .ofOption SqlType.toJson type)])]
  | .call head args => .object [("func", head.toJson (toJsonList args))]
  | .aggregate kind head args distinct summary =>
    .object [("aggregate", .object [("kind", .string kind.name),
      ("func", head.toJson (toJsonList args)), ("distinct", .boolean distinct),
      ("is_summary", .boolean summary)])]
  | .sorted source direction nulls =>
    .object [("ordering", .object [("expr", source.toJson), ("direction", .string direction.name),
      ("nulls", .string nulls.name)])]
  | .compare left op right =>
    .object [("compare", .object [("lhs", left.toJson), ("op", .string op.name),
      ("rhs", right.toJson)])]
  | .logic connective parts negated =>
    .object [("where", .object [("connector", .string connective.name),
      ("children", .array (toJsonList parts)), ("negated", .boolean negated)])]
  | .typed source type =>
    .object [("wrapper", .object [("expr", source.toJson), ("output_field", type.toJson)])]

/-- The descriptions of the expressions in a list. -/
def toJsonList : List Expr → List Json
  | [] => []
  | e :: rest => e.toJson :: toJsonList rest

end

/-- The expression that a description stands for, if it has at most `depth` nodes one below the
other. -/
def ofJsonWithin : Nat → Json → Option Expr
  | 0, _ => none
  | depth + 1, j => do
    match ← j.variant? with
    | ("star", none) | ("star", some .null) => return .star
    | ("field", some content) =>
      match ← content.record? ["name"] with
      | [name] => return .field (← name.required >>= Json.string?)
      | _ => none
    | ("col", some content) =>
      match ← content.record? ["alias", "column", "output_field"] with
      | [tableAlias, name, type] =>
        return .column (← tableAlias.required >>= Json.string?) (← name.required >>= Json.string?)
          (← type.optional SqlType.ofJson?)
      | _ => none
    | ("ref", some content) =>
      match ← content.record? ["alias", "source"] with
      | [name, source] =>
        return .ref (← name.required >>= Json.string?) (← source.required >>= ofJsonWithin depth)
      | _ => none
    | ("literal", some content) =>
      match ← content.record? ["value", "output_field"] with
      | [value, type] =>
        return .literal (← value.required >>= Value.ofJson?) (← type.optional SqlType.ofJson?)
      | _ => none
    | ("combined", some content) =>
      match ← content.record? ["lhs", "op", "rhs", "output_field"] with
      | [left, op, right, type] =>
        return .arith (← left.required >>= ofJsonWithin depth) (← op.required >>= ArithOp.ofJson?)
          (← right.required >>= ofJsonWithin depth) (← type.optional SqlType.ofJson?)
      | _ => none
    | ("func", some content) =>
      let (head, args) ← CallHead.ofJson? content
      return .call head (← args.mapM (ofJsonWithin depth))
    | ("aggregate", some content) =>
      match ← content.record? ["kind", "func", "distinct", "is_summary"] with
      | [kind, called, distinct, summary] =>
        let (head, args) ← called.required >>= CallHead.ofJson?
        return .aggregate (← kind.required >>= AggregateKind.ofJson?) head
          (← args.mapM (ofJsonWithin depth)) (← distinct.required >>= Json.boolean?)
          (← summary.required >>= Json.boolean?)
      | _ => none
    | ("ordering", some content) =>
      match ← content.record? ["expr", "direction", "nulls"] with
      | [source, direction, nulls] =>
        return .sorted (← source.required >>= ofJsonWithin depth)
          (← direction.required >>= SortDirection.ofJson?)
          (← nulls.required >>= NullPlacement.ofJson?)
      | _ => none
    | ("compare", some content) =>
      match ← content.record? ["lhs", "op", "rhs"] with
      | [left, op, right] =>
        return .compare (← left.required >>= ofJsonWithin depth)
          (← op.required >>= CompareOp.ofJson?) (← right.required >>= ofJsonWithin depth)
      | _ => none
    | ("where", some content) =>
      match ← content.record? ["connector", "children", "negated"] with
      | [connective, parts, negated] =>
        return .logic (← connective.required >>= Connective.ofJson?)
          (← (← parts.required >>= Json.items?).mapM (ofJsonWithin depth))
          (← negated.required >>= Json.boolean?)
      | _ => none
    | ("wrapper", some content) =>
      match ← content.record? ["expr", "output_field"] with
      | [source, type] =>
        return .typed (← source.required >>= ofJsonWithin depth)
          (← type.required >>= SqlType.ofJson?)
      | _ => none
    | _ => none

/-- The expression that a description stands for. Its nodes are no deeper than the description. -/
def ofJson? (j : Json) : Option Expr :=
  ofJsonWithin (j.height + 1) j

end Expr

end BoundSql
