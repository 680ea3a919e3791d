import BoundSql.Expr.Typing
import BoundSql.Override
import BoundSql.Template

/-!
# Rendering

Resolved expressions as SQL text with bound parameters. A literal is always a `?` with its value
bound to it, so no value reaches the text. Arithmetic in arithmetic is put into parentheses, also
where it is reached through references and declared types, which render as their source.

`Renderer.renderNode` renders a node from what its sources rendered to, and `Renderer.render` is
its fold over the tree.
-/

namespace BoundSql

/-- The node that is rendered for an expression: the first below references and declared types. -/
def Expr.inlined : Expr → Expr
  | .ref _ source | .typed source _ => source.inlined
  | e => e

/-- Whether an expression is rendered as arithmetic. -/
def Expr.isArithmetic (e : Expr) : Bool :=
  match e.inlined with
  | .arith .. => true
  | _ => false

/-- Two fragments with an operator between them. -/
def Fragment.between (left : Fragment) (operator : String) (right : Fragment) : Fragment :=
  Fragment.join (" " ++ operator ++ " ") [left, right]

/-- The keywords of a stated placement of NULL. -/
def NullPlacement.keywords : NullPlacement → String
  | .unspecified => ""
  | .first => " NULLS FIRST"
  | .last => " NULLS LAST"

/-- A dialect with its overrides. -/
structure Renderer where
  dialect : Dialect
  overrides : Overrides

namespace Renderer

/-- The dialect as it comes. -/
def standard (dialect : Dialect) : Renderer :=
  ⟨dialect, .standard⟩

/-- The renderer with an override for a kind of node on its dialect. -/
def withOverride (r : Renderer) (kind : String) (value : Override) : Renderer :=
  { r with overrides := r.overrides.insert r.dialect kind value }

/-- The texts that the template of a call may mention. -/
def context (r : Renderer) (head : CallHead) (function : Option String) (args : String) :
    Dict String :=
  let texts := match function with
    | some name => head.extra.insert "function" name
    | none => head.extra
  let texts := texts.insert "expressions" args
  match head.type with
  | some type => texts.insert "db_type" (r.dialect.castType type)
  | none => texts

/-- A call over rendered arguments, written through the given texts. -/
def renderCall (r : Renderer) (head : CallHead) (function : Option String)
    (template joiner : String) (args : List (Except Error Fragment)) : Except Error Fragment := do
  let args := Fragment.join joiner (← args.mapM id)
  let sql ← Template.render template (r.context head function args.sql)
  return ⟨sql, args.params⟩

/-- A predicate over its rendered parts. No parts are the neutral truth value of the connective. -/
def renderLogic (connective : Connective) (negated : Bool)
    (parts : List (Except Error Fragment)) : Except Error Fragment := do
  let parts ← parts.mapM id
  let body := match parts, connective with
    | [], .and => Fragment.raw "1 = 1"
    | [], .or => Fragment.raw "1 = 0"
    | parts, _ => Fragment.join (" " ++ connective.keyword ++ " ") parts
  return (
    if negated then body.parenthesized.mapSql ("NOT " ++ ·)
    else if 1 < parts.length then body.parenthesized
    else body)

/-- A node as every dialect renders it unless it overrides the kind. -/
def renderGeneric (r : Renderer) : Expr → List (Except Error Fragment) → Except Error Fragment
  | .field path, _ => .error (.unresolved path)
  | .column tableAlias name _, _ =>
    .ok (.raw (r.dialect.quoteName tableAlias ++ "." ++ r.dialect.quoteName name))
  | .ref _ _, [source] => source
  | .literal value _, _ => .ok (.bind value)
  | .star, _ => .ok (.raw "*")
  | .arith left op right type, [left', right'] => do
    discard (Expr.type? (.arith left op right type))
    let operand := fun (e : Expr) (a : Fragment) => if e.isArithmetic then a.parenthesized else a
    let a ← left'
    let b ← right'
    return (operand left a).between op.symbol (operand right b)
  | .call head _, args => r.renderCall head head.function head.template head.joiner args
  | .aggregate _ head _ _ _, args => r.renderCall head head.function head.template head.joiner args
  | .sorted _ direction nulls, [source] => do
    return (← source).mapSql (· ++ " " ++ direction.keyword ++ nulls.keywords)
  | .compare _ op _, [left, right] => return (← left).between op.symbol (← right)
  | .logic connective _ negated, parts => renderLogic connective negated parts
  | .typed _ _, [source] => source
  | e, sources => .error (.sourceCount e.kind e.sources.length sources.length)

/-- A node under a rule of its own. -/
def renderCustom (r : Renderer) : CustomRule → Expr → List (Except Error Fragment) →
    Except Error Fragment
  | .edited edit, e, sources => edit (r.renderGeneric e sources)
  | .powerAsCall, .arith left .pow right type, [left', right'] => do
    discard (Expr.type? (.arith left .pow right type))
    let args := Fragment.join ", " [← left', ← right']
    return args.parenthesized.mapSql ("POWER" ++ ·)
  | .nullsAsKey, .sorted _ direction nulls, [source] => do
    let key ← source
    let sorted := key.mapSql (· ++ " " ++ direction.keyword)
    return match nulls with
      | .unspecified => sorted
      | .last => Fragment.join ", " [key.mapSql (· ++ " IS NULL"), sorted]
      | .first => Fragment.join ", " [key.mapSql (· ++ " IS NOT NULL"), sorted]
  | _, e, sources => r.renderGeneric e sources

/-- A call or aggregate with some of its texts replaced; other nodes have no texts to replace. -/
def renderTemplate (r : Renderer) (function template joiner : Option String) (e : Expr)
    (sources : List (Except Error Fragment)) : Except Error Fragment :=
  match e with
  | .call head _ | .aggregate _ head _ _ _ =>
    r.renderCall head (function <|> head.function) (template.getD head.template)
      (joiner.getD head.joiner) sources
  | e => r.renderGeneric e sources

/-- A node, given what its sources rendered to. -/
def renderNode (r : Renderer) (e : Expr) (sources : List (Except Error Fragment)) :
    Except Error Fragment :=
  match r.overrides.get? r.dialect e.kind with
  | none => r.renderGeneric e sources
  | some .unsupported => .error (.unsupported e.kind r.dialect.vendor)
  | some (.custom rule) => r.renderCustom rule e sources
  | some (.template function template joiner) =>
    r.renderTemplate function template joiner e sources

/-- An expression as SQL. -/
def render (r : Renderer) : Expr → Except Error Fragment :=
  Expr.fold r.renderNode

/-- A node is rendered from what its sources render to, in order. -/
theorem render_eq (r : Renderer) (e : Expr) :
    r.render e = r.renderNode e (e.sources.map r.render) :=
  Expr.fold_eq _ e

/-- Without an override for its kind a node is rendered as by every dialect. -/
theorem render_eq_generic {r : Renderer} {e : Expr}
    (plain : r.overrides.get? r.dialect e.kind = none) :
    r.render e = r.renderGeneric e (e.sources.map r.render) := by
  rw [render_eq, renderNode, plain]

/-- Expressions as SQL, side by side with a separator between each two. -/
def renderList (r : Renderer) (separator : String) (es : List Expr) : Except Error Fragment :=
  return Fragment.join separator (← es.mapM r.render)

end Renderer

end BoundSql
