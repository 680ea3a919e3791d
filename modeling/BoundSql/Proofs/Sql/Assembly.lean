import BoundSql.Proofs.Sql.Filling
import BoundSql.Proofs.Sql.Rendering

/-!
# Rendering as assembly

A tree renders exactly when all of its nodes are `Expressible`, and what it renders to is put together
node by node by `Expr.assemble`, which cannot fail (`render_eq_ok_iff`). So all that can go wrong is
said in one place and what is written in another. The induction is on the tree, with
`renderNode_of_expressible` and `of_renderNode_eq_ok` for its step.
-/

namespace BoundSql

namespace Fragment

/-- A power as a call. -/
def power (a b : Fragment) : Fragment :=
  (join ", " [a, b]).parenthesized.mapSql ("POWER" ++ ·)

/-- A sort key. MySQL has no words for the placement of NULL and sorts by a test for it first. -/
def sorted (d : Dialect) (direction : SortDirection) (nulls : NullPlacement) (key : Fragment) :
    Fragment :=
  let plain := key.mapSql (· ++ " " ++ direction.keyword)
  match d, nulls with
  | _, .unspecified => plain
  | .mysql, .last => join ", " [key.mapSql (· ++ " IS NULL"), plain]
  | .mysql, .first => join ", " [key.mapSql (· ++ " IS NOT NULL"), plain]
  | _, nulls => plain.mapSql (· ++ nulls.keywords)

/-- A predicate over its parts. -/
def logic (connective : Connective) (negated : Bool) (parts : List Fragment) : Fragment :=
  let body := match parts, connective with
    | [], .and => raw "1 = 1"
    | [], .or => raw "1 = 0"
    | parts, _ => join (" " ++ connective.keyword ++ " ") parts
  if negated then body.parenthesized.mapSql ("NOT " ++ ·)
  else if 1 < parts.length then body.parenthesized
  else body

end Fragment

namespace CallHead

/-- The call with the texts that a dialect puts in the place of its own. -/
def on (head : CallHead) (d : Dialect) (kind : String) : CallHead :=
  match Overrides.standard.get? d kind with
  | some (.template function template joiner) =>
    { head with
      function := function <|> head.function
      template := template.getD head.template
      joiner := joiner.getD head.joiner }
  | _ => head

/-- A template may mention the key. -/
def Provides (head : CallHead) (key : String) : Prop :=
  key = "expressions" ∨ (key = "function" ∧ head.function.isSome = true) ∨
    (key = "db_type" ∧ head.type.isSome = true) ∨ head.extra.contains key = true

/-- The template closes its placeholders, and mentions nothing that the call does not have. -/
structure Complete (head : CallHead) : Prop where
  closed : ∀ rest, .unclosed rest ∉ Template.pieces head.template
  provided : ∀ key, .placeholder key ∈ Template.pieces head.template → head.Provides key

/-- The call over its arguments. -/
def assemble (head : CallHead) (d : Dialect) (args : List Fragment) : Fragment :=
  let args := Fragment.join head.joiner args
  let context := (Renderer.standard d).context head head.function args.sql
  ⟨Template.fill head.template context, args.params⟩

end CallHead

namespace Expr

/-- An operand of arithmetic as it is written. -/
def operand (e : Expr) (a : Fragment) : Fragment :=
  if e.isArithmetic then a.parenthesized else a

/-- What a call or aggregate is written with. -/
def head? : Expr → Option CallHead
  | .call head _ | .aggregate _ head _ _ _ => some head
  | _ => none

/-- The dialect can write the node, if it can write the sources. -/
structure Expressible (d : Dialect) (n : Expr) : Prop where
  resolved : ∀ path, n ≠ .field path
  typed : ∀ left op right type, n = .arith left op right type → ∃ t, n.type? = .ok t
  supported : Overrides.standard.get? d n.kind ≠ some .unsupported
  complete : ∀ head, n.head? = some head → (head.on d n.kind).Complete

/-- A node put together from what its sources are written as. -/
def assemble (d : Dialect) (e : Expr) (parts : List Fragment) : Fragment :=
  match e, parts with
  | .column tableAlias name _, _ => .raw (d.quoteName tableAlias ++ "." ++ d.quoteName name)
  | .literal value _, _ => .bind value
  | .star, _ => .raw "*"
  | .ref _ _, [a] | .typed _ _, [a] => a
  | .arith left op right _, [a, b] =>
    if op = .pow ∧ d ≠ .postgres then .power a b
    else (left.operand a).between op.symbol (right.operand b)
  | .call head _, args => (head.on d head.name).assemble d args
  | .aggregate kind head _ _ _, args => (head.on d kind.label).assemble d args
  | .sorted _ direction nulls, [key] => .sorted d direction nulls key
  | .compare _ op _, [a, b] => a.between op.symbol b
  | .logic connective _ negated, parts => .logic connective negated parts
  | _, _ => .raw ""

end Expr

variable {d : Dialect} {e : Expr} {head : CallHead} {a : Fragment} {parts : List Fragment}
  {sources : List (Except Error Fragment)}

/-- The placeholders with a text are those that the head of a call provides. -/
lemma contains_context_iff {r : Renderer} {args key : String} :
    (r.context head head.function args).contains key = true ↔ head.Provides key := by
  have contains_insert (context : Dict String) (k text : String) :
      (context.insert k text).contains key = true ↔ k = key ∨ context.contains key = true := by
    rw [Dict.contains, Dict.contains, Dict.get?_insert]
    split <;> simp [*]
  unfold CallHead.Provides Renderer.context
  cases head.function <;> cases head.type <;> simp only [contains_insert] <;> grind

/-- A call is written when its arguments are and its template has all it mentions. -/
lemma renderCall_eq_ok_iff :
    (Renderer.standard d).renderCall head head.function head.template head.joiner sources = .ok a ↔
      head.Complete ∧ ∃ parts, sources = parts.map .ok ∧ a = head.assemble d parts := by
  -- which texts there are does not depend on the arguments
  have known {args : String} : (∀ piece ∈ Template.pieces head.template,
      piece.Known ((Renderer.standard d).context head head.function args)) ↔ head.Complete := by
    constructor
    · intro h
      exact ⟨fun rest mem => h _ mem, fun key mem => contains_context_iff.1 (h _ mem)⟩
    · intro h piece mem
      cases piece with
      | char => trivial
      | placeholder key => exact contains_context_iff.2 (h.provided key mem)
      | unclosed rest => exact h.closed rest mem
  rw [Renderer.renderCall, except_bind_eq_ok_iff]
  constructor
  · rintro ⟨parts, run, rest⟩
    obtain ⟨sql, filled, last⟩ := except_bind_ok rest
    cases last
    obtain ⟨complete, rfl⟩ := Template.render_eq_ok_iff.1 filled
    exact ⟨known.1 complete, parts, except_mapM_id_eq_ok_iff.1 run, rfl⟩
  · rintro ⟨complete, parts, rfl, rfl⟩
    refine ⟨parts, except_mapM_id_eq_ok_iff.2 rfl, ?_⟩
    exact except_bind_eq_ok_iff.2 ⟨_, Template.render_eq_ok_iff.2 ⟨known.2 complete, rfl⟩, rfl⟩

namespace Renderer

/-- A call or aggregate is written with the texts of the dialect, unless that has no form of it. -/
lemma renderNode_of_head (isCall : e.head? = some head)
    (supported : Overrides.standard.get? d e.kind ≠ some .unsupported) :
    (standard d).renderNode e sources =
      (standard d).renderCall (head.on d e.kind) (head.on d e.kind).function
        (head.on d e.kind).template (head.on d e.kind).joiner sources := by
  have overrides : (standard d).overrides.get? (standard d).dialect e.kind =
      Overrides.standard.get? d e.kind := rfl
  rw [renderNode, overrides, CallHead.on]
  cases found : Overrides.standard.get? d e.kind with
  | none =>
    cases e with
    | call | aggregate =>
      cases isCall
      rfl
    | _ => cases isCall
  | some o =>
    have allowed := Overrides.allowed_of_standard found
    cases o with
    | unsupported => exact absurd found supported
    | template =>
      cases e with
      | call | aggregate =>
        cases isCall
        rfl
      | _ => cases isCall
    | custom rule =>
      -- the rules of the dialects are for other nodes
      cases e with
      | call | aggregate =>
        cases isCall
        cases rule with
        | edited => cases allowed
        | _ => rfl
      | _ => cases isCall

/-- A kind of node without an override is rendered generically. -/
lemma renderNode_of_get?_none (plain : Overrides.standard.get? d e.kind = none) :
    (standard d).renderNode e sources = (standard d).renderGeneric e sources := by
  have noRule : (standard d).overrides.get? (standard d).dialect e.kind = none := plain
  rw [renderNode, noRule]

/-- A kind of node with a rule of its own is rendered by the rule. -/
lemma renderNode_of_get?_custom {rule : CustomRule}
    (found : Overrides.standard.get? d e.kind = some (.custom rule)) :
    (standard d).renderNode e sources = (standard d).renderCustom rule e sources := by
  have rule : (standard d).overrides.get? (standard d).dialect e.kind = some (.custom rule) := found
  rw [renderNode, rule]

/-- A kind of node that the dialect does not support is not rendered. -/
lemma renderNode_of_get?_unsupported
    (found : Overrides.standard.get? d e.kind = some .unsupported) :
    (standard d).renderNode e sources = .error (.unsupported e.kind d.vendor) := by
  have rule : (standard d).overrides.get? (standard d).dialect e.kind = some .unsupported := found
  rw [renderNode, rule]
  rfl

/-- Rendered parts go under a connective without fail. -/
lemma renderLogic_ok (connective : Connective) (negated : Bool) (parts : List Fragment) :
    renderLogic connective negated (parts.map .ok) = .ok (.logic connective negated parts) := by
  rw [renderLogic, except_mapM_id_eq_ok_iff.2 rfl]
  rfl

/-- An expressible node is written over sources that are. -/
lemma renderNode_of_expressible (h : e.Expressible d) (length : parts.length = e.sources.length) :
    (standard d).renderNode e (parts.map .ok) = .ok (e.assemble d parts) := by
  cases e with
  | field path => exact absurd rfl (h.resolved path)
  | column | literal | star =>
    rw [renderNode_of_get?_none (by cases d <;> rfl)]
    rfl
  | ref | typed =>
    obtain ⟨a, rfl⟩ := List.length_eq_one_iff.1 length
    rw [renderNode_of_get?_none (by cases d <;> rfl)]
    rfl
  | arith left op right type =>
    obtain ⟨a, b, rfl⟩ := List.length_eq_two.1 length
    obtain ⟨t, typed⟩ := h.typed left op right type rfl
    have generic : (standard d).renderGeneric (.arith left op right type) [.ok a, .ok b] =
        .ok ((left.operand a).between op.symbol (right.operand b)) := by
      rw [renderGeneric, typed]
      rfl
    cases d with
    | postgres =>
      rw [renderNode_of_get?_none rfl]
      exact generic.trans (by simp [Expr.assemble])
    | sqlite | mysql =>
      -- only powers have a way of their own
      rw [renderNode_of_get?_custom rfl]
      cases op with
      | pow =>
        rw [List.map_cons, List.map_singleton, renderCustom, typed]
        rfl
      | _ => exact generic
  | call | aggregate =>
    rw [renderNode_of_head rfl h.supported]
    exact renderCall_eq_ok_iff.2 ⟨h.complete _ rfl, parts, rfl, rfl⟩
  | sorted source direction nulls =>
    obtain ⟨a, rfl⟩ := List.length_eq_one_iff.1 length
    cases d with
    | postgres | sqlite =>
      rw [renderNode_of_get?_none rfl]
      cases nulls with
      | unspecified => simp [renderGeneric, Expr.assemble, Fragment.sorted, NullPlacement.keywords]
      | first | last => rfl
    | mysql =>
      rw [renderNode_of_get?_custom rfl]
      cases nulls <;> rfl
  | compare =>
    obtain ⟨a, b, rfl⟩ := List.length_eq_two.1 length
    rw [renderNode_of_get?_none (by cases d <;> rfl)]
    rfl
  | logic =>
    rw [renderNode_of_get?_none (by cases d <;> rfl)]
    exact renderLogic_ok _ _ _

/-- What is rendered is supported. -/
lemma supported_of_renderNode_eq_ok (run : (standard d).renderNode e sources = .ok a) :
    Overrides.standard.get? d e.kind ≠ some .unsupported := by
  intro found
  rw [renderNode_of_get?_unsupported found] at run
  cases run

/-- Arithmetic is written when it has a type and its operands are. -/
lemma of_typed_pair {α : Type} {type : Except Error α} {x y : Except Error Fragment}
    {f : Fragment → Fragment → Fragment}
    (run : (do discard type; let a ← x; let b ← y; return f a b) = .ok a) :
    (∃ t, type = .ok t) ∧ ∃ parts : List Fragment, [x, y] = parts.map .ok := by
  cases type with
  | error => cases run
  | ok t =>
    obtain ⟨-, -, run⟩ := except_bind_ok run
    obtain ⟨b, first, run⟩ := except_bind_ok run
    obtain ⟨c, second, -⟩ := except_bind_ok run
    rw [first, second]
    exact ⟨⟨t, rfl⟩, [b, c], rfl⟩

/-- A node that is written is expressible, and so were its sources. -/
lemma of_renderNode_eq_ok (length : sources.length = e.sources.length)
    (run : (standard d).renderNode e sources = .ok a) :
    e.Expressible d ∧ ∃ parts : List Fragment, sources = parts.map .ok := by
  have supported := supported_of_renderNode_eq_ok run
  cases e with
  | field path =>
    rw [renderNode_of_get?_none (by cases d <;> rfl)] at run
    cases run
  | column | literal | star =>
    obtain rfl := List.eq_nil_of_length_eq_zero length
    exact ⟨⟨nofun, nofun, supported, nofun⟩, [], rfl⟩
  | ref | typed =>
    obtain ⟨x, rfl⟩ := List.length_eq_one_iff.1 length
    rw [renderNode_of_get?_none (by cases d <;> rfl)] at run
    exact ⟨⟨nofun, nofun, supported, nofun⟩, [a], congrArg ([·]) run⟩
  | arith left op right type =>
    obtain ⟨x, y, rfl⟩ := List.length_eq_two.1 length
    -- each way to write arithmetic asks for its type first, and for its operands then
    have both : (∃ t, Expr.type? (.arith left op right type) = .ok t) ∧
        ∃ parts : List Fragment, [x, y] = parts.map .ok := by
      cases d with
      | postgres =>
        rw [renderNode_of_get?_none rfl] at run
        exact of_typed_pair run
      | sqlite | mysql =>
        rw [renderNode_of_get?_custom rfl] at run
        cases op <;> exact of_typed_pair run
    refine ⟨⟨nofun, ?_, supported, nofun⟩, both.2⟩
    rintro _ _ _ _ ⟨⟩
    exact both.1
  | call | aggregate =>
    rw [renderNode_of_head rfl supported] at run
    obtain ⟨complete, parts, eq, -⟩ := renderCall_eq_ok_iff.1 run
    refine ⟨⟨nofun, nofun, supported, ?_⟩, parts, eq⟩
    rintro _ ⟨⟩
    exact complete
  | sorted source direction nulls =>
    obtain ⟨x, rfl⟩ := List.length_eq_one_iff.1 length
    refine ⟨⟨nofun, nofun, supported, nofun⟩, ?_⟩
    cases d with
    | postgres | sqlite =>
      rw [renderNode_of_get?_none rfl] at run
      obtain ⟨key, written, -⟩ := except_bind_ok run
      exact ⟨[key], congrArg ([·]) written⟩
    | mysql =>
      rw [renderNode_of_get?_custom rfl] at run
      obtain ⟨key, written, -⟩ := except_bind_ok run
      exact ⟨[key], congrArg ([·]) written⟩
  | compare =>
    obtain ⟨x, y, rfl⟩ := List.length_eq_two.1 length
    rw [renderNode_of_get?_none (by cases d <;> rfl)] at run
    obtain ⟨b, first, run⟩ := except_bind_ok run
    obtain ⟨c, second, run⟩ := except_bind_ok run
    exact ⟨⟨nofun, nofun, supported, nofun⟩, [b, c], by rw [first, second]; rfl⟩
  | logic =>
    rw [renderNode_of_get?_none (by cases d <;> rfl)] at run
    obtain ⟨parts, rendered, -⟩ := except_bind_ok run
    exact ⟨⟨nofun, nofun, supported, nofun⟩, parts, except_mapM_id_eq_ok_iff.1 rendered⟩

/-- A tree renders exactly when each node of it is expressible, and then to what its nodes are put
together to. -/
theorem render_eq_ok_iff :
    (standard d).render e = .ok a ↔
      e.Throughout (Expr.Expressible d) ∧ a = e.fold (Expr.assemble d) := by
  induction e using Expr.induction generalizing a with
  | node e ih =>
    rw [render_eq, Expr.fold_eq, Expr.throughout_iff]
    -- the sources are written in a row, each of them as its own tree
    have row {written : List Fragment} : e.sources.map (standard d).render = written.map .ok ↔
        (∀ s ∈ e.sources, s.Throughout (Expr.Expressible d)) ∧
          written = e.sources.map (Expr.fold (Expr.assemble d)) := by
      rw [← except_mapM_id_eq_ok_iff, List.mapM_map]
      exact except_mapM_eq_ok_iff fun s mem _ => ih s mem
    constructor
    · intro run
      obtain ⟨expressible, written, eq⟩ := of_renderNode_eq_ok (List.length_map _) run
      obtain ⟨sources, rfl⟩ := row.1 eq
      rw [eq, renderNode_of_expressible expressible (List.length_map _)] at run
      cases run
      exact ⟨⟨expressible, sources⟩, rfl⟩
    · rintro ⟨⟨expressible, sources⟩, rfl⟩
      rw [row.2 ⟨sources, rfl⟩]
      exact renderNode_of_expressible expressible (List.length_map _)

/-- A tree has a rendering exactly when each node of it is expressible: no field is left to resolve,
all arithmetic has a type, the dialect supports each kind, and the template of each call, or the one of
the dialect in its place, closes its placeholders and mentions only what there is. -/
theorem renders_iff_throughout_expressible (d : Dialect) (e : Expr) :
    (∃ a, (standard d).render e = .ok a) ↔ e.Throughout (Expr.Expressible d) := by
  constructor
  · rintro ⟨a, run⟩
    exact (render_eq_ok_iff.1 run).1
  · intro expressible
    exact ⟨_, render_eq_ok_iff.2 ⟨expressible, rfl⟩⟩

end Renderer

end BoundSql
