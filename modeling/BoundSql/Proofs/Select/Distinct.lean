import BoundSql.Expr.Functions
import BoundSql.Proofs.Expr.Relabelling
import BoundSql.Proofs.Expr.Replacing
import BoundSql.Proofs.Select.Resolution
import BoundSql.Proofs.Select.Steps
import BoundSql.Rendering

/-!
# Aggregates over distinct values

An aggregate is built from its kind and source by calls that each give a new one: it is made distinct,
its type is declared, its source is replaced, relabelled or resolved. Whether it is distinct, its text
for the key `distinct`, and what its kind allows stay together in every order of calls (`Made.form`).

Its source is another matter. A star is refused only when it is the source itself, and only by the call
that makes the aggregate distinct. `AggregateCall.bringsStar` tells which calls make it an aggregate
over the distinct values of a star all the same (`distinct_aggregates`).
-/

namespace BoundSql

/-- The expression is rendered as a star: it is one, or a reference or declared type leads to one. -/
def Expr.endsInStar (e : Expr) : Bool :=
  match e.inlined with
  | .star => true
  | _ => false

/-- The expression is an aggregate over distinct values. -/
def Expr.isDistinct : Expr → Bool
  | .aggregate _ _ _ distinct _ => distinct
  | _ => false

/-- The expression is an aggregate over the distinct values of a star. -/
def Expr.isDistinctStar (e : Expr) : Bool :=
  e.isDistinct && e.sources.any Expr.endsInStar

/-- Resolving the expression against the query gives a computed column that ends in a star, under the
types that are declared for the expression. -/
def Select.answersStar (s : Select) : Expr → Bool
  | .typed source _ => s.answersStar source
  | .field path =>
    match s.computed.find? (·.1 == (FieldPath.ofString path).first) with
    | some (_, source) => source.endsInStar
    | none => false
  | _ => false

/-- A call that makes a new expression of an aggregate. -/
inductive AggregateCall where
  | distinct
  | declare (type : SqlType)
  | replace (sources : List Expr)
  | relabel (renames : Dict String)
  | resolve (mode : Resolution) (s : Select)

namespace AggregateCall

/-- What a call gives when it succeeds. -/
inductive Gives : AggregateCall → Expr → Expr → Prop where
  | distinct {kind head args distinct summary r} :
      Expr.distinctAggregate kind head args summary = .ok r →
      Gives .distinct (.aggregate kind head args distinct summary) r
  | declare (type e) : Gives (.declare type) e (e.withType type)
  | replace {sources e r} : e.withSources sources = .ok r → Gives (.replace sources) e r
  | relabel (renames e) : Gives (.relabel renames) e (e.relabel renames)
  | resolve {mode s e r t} : (Select.resolve mode e).on s = (.ok r, t) →
      Gives (.resolve mode s) e r

/-- The call brings a star to the distinct values of the aggregate. -/
def bringsStar (e : Expr) : AggregateCall → Bool
  | .distinct => e.sources.any Expr.endsInStar
  | .replace sources => e.isDistinct && sources.any Expr.endsInStar
  | .resolve _ s => e.isDistinct && e.sources.any s.answersStar
  | .declare _ | .relabel _ => false

end AggregateCall

/-- The expression is made of an aggregate of a kind over a source by calls that are allowed. -/
inductive Made (allowed : AggregateCall → Expr → Prop) (kind : AggregateKind) (source : Expr) :
    Expr → Prop where
  | new : Made allowed kind source (.aggregateOf kind source)
  | call {c e r} : Made allowed kind source e → allowed c e → c.Gives e r →
      Made allowed kind source r

/-- What may differ between two aggregates of one kind that calls made. -/
structure AggregateForm where
  source : Expr
  distinct : Bool
  type : Option SqlType
  summary : Bool

namespace AggregateForm

/-- The text for the key `distinct`. -/
def keyword (a : AggregateForm) : String :=
  if a.distinct then "DISTINCT " else ""

/-- What the aggregate of the given kind is written with. -/
def head (a : AggregateForm) (kind : AggregateKind) : CallHead :=
  { CallHead.ofAggregate kind with
    extra := (∅ : Dict String).insert "distinct" a.keyword
    type := a.type }

/-- The aggregate of the given kind and form. -/
def expr (a : AggregateForm) (kind : AggregateKind) : Expr :=
  .aggregate kind (a.head kind) [a.source] a.distinct a.summary

/-- What a call makes of the form of an aggregate. -/
inductive Turns (kind : AggregateKind) (a : AggregateForm) : AggregateCall → AggregateForm → Prop where
  | distinct : kind.allowsDistinct = true → Turns kind a .distinct { a with distinct := true }
  | declare (type) : Turns kind a (.declare type) { a with type := some type }
  | replace (source) : Turns kind a (.replace [source]) { a with source }
  | relabel (renames) :
      Turns kind a (.relabel renames) { a with source := a.source.relabel renames }
  | resolve {mode s source} : source.endsInStar = (a.source.endsInStar || s.answersStar a.source) →
      Turns kind a (.resolve mode s) { a with source, summary := mode.summarize }

end AggregateForm

variable {allowed : AggregateCall → Expr → Prop} {kind : AggregateKind} {a b : AggregateForm}
  {c : AggregateCall} {e r source : Expr} {s t : Select} {mode : Resolution} {renames : Dict String}

/-- Of two values for a key the latter counts. -/
lemma Dict.insert_insert {α : Type} (d : Dict α) (key : String) (old value : α) :
    (d.insert key old).insert key value = d.insert key value := by
  have entries (l : List (String × α)) :
      insertEntry key value (insertEntry key old l) = insertEntry key value l := by
    induction l with
    | nil => simp [insertEntry]
    | cons entry rest ih =>
      by_cases before : key < entry.1
      · simp [insertEntry, before]
      · by_cases same : key = entry.1 <;> simp [insertEntry, before, same, ih]
  exact Dict.ext (entries d.entries)

namespace Expr

/-- Relabelling finds no star and loses none. -/
lemma endsInStar_relabel (e : Expr) (renames : Dict String) :
    (e.relabel renames).endsInStar = e.endsInStar := by
  induction e using column_induction with
  | column => rfl
  | node e other ih =>
    rw [relabel_node other]
    cases e with
    | ref name source => exact ih source List.mem_cons_self
    | typed source type => exact ih source List.mem_cons_self
    | _ => rfl

/-- An aggregate can be made distinct when its kind allows that and its source is not a star. -/
lemma of_distinctAggregate {head : CallHead} {summary : Bool}
    (h : distinctAggregate kind head [source] summary = .ok r) :
    kind.allowsDistinct = true ∧ source ≠ star ∧
      r = .aggregate kind { head with extra := head.extra.insert "distinct" "DISTINCT " }
        [source] true summary := by
  rw [distinctAggregate] at h
  split_ifs at h with allows
  · obtain ⟨only, eq, h⟩ := except_bind_ok h
    cases eq
    split at h
    · cases h
    · rename_i other
      cases h
      exact ⟨allows, other, rfl⟩

/-- A node that is rendered as itself is so over other sources. -/
lemma endsInStar_rebound {summarize : Bool} {sources : List Expr} (direct : e.isRef = false)
    (untyped : ∀ source type, e ≠ typed source type) :
    (e.rebound summarize sources).endsInStar = e.endsInStar := by
  cases e with
  | ref => cases direct
  | typed source type => exact absurd rfl (untyped source type)
  | arith | sorted | compare =>
    show (replaceSources _ sources).endsInStar = _
    unfold replaceSources
    split <;> first | rfl | contradiction
  | _ => rfl

/-- A field path is answered by a star when the computed column that it names ends in one. -/
lemma endsInStar_of_resolveField {path : String}
    (run : (Select.resolveField mode path).on s = (.ok r, t)) :
    r.endsInStar = s.answersStar (field path) := by
  rw [Select.answersStar]
  rcases Select.resolveField_cases mode path s with
    ⟨name, source, named, found, -⟩ | ⟨place, column, u, walked, found, -⟩ | ⟨_, _, _, _, fails, -⟩
  · cases named.symm.trans run
    rw [found]
    rfl
  · cases walked.symm.trans run
    rw [found]
    rfl
  · cases fails.symm.trans run

/-- A resolved expression ends in a star when it did so before, or is answered by one. -/
lemma ResolvesTo.endsInStar {summarize : Bool} {answers : List Expr}
    (h : e.ResolvesTo summarize answers r)
    (answered : (Select.resolveFields mode e.fieldPaths).on s = (.ok answers, t)) :
    r.endsInStar = (e.endsInStar || s.answersStar e) := by
  induction e using Expr.induction generalizing answers r with
  | node e ih =>
    cases e with
    | field path =>
      obtain rfl := resolvesTo_field.1 h
      have answered : (Select.resolveFields mode [path]).on s = (.ok [r], t) := answered
      rw [Select.resolveFields, List.mapM_cons] at answered
      obtain ⟨answer, u, run, rest⟩ := Select.Action.bind_ok answered
      cases rest
      rw [endsInStar_of_resolveField run]
      rfl
    | ref name source =>
      obtain ⟨-, rfl⟩ := resolvesTo_ref.1 h
      exact (Bool.or_false _).symm
    | typed source type =>
      obtain ⟨paths, resolved, part, rfl⟩ := h.of_single rfl rfl
      rw [paths] at answered
      show resolved.endsInStar = (source.endsInStar || s.answersStar source)
      exact ih source List.mem_cons_self part answered
    | _ =>
      -- any other node is put over its resolved sources
      obtain ⟨-, resolved, -, -, rfl, -⟩ := (resolvesTo_node rfl rfl).1 h
      rw [endsInStar_rebound rfl (by rintro _ _ ⟨⟩)]
      exact (Bool.or_false _).symm

end Expr

namespace AggregateForm

/-- Each call that succeeds changes one part of the form. -/
lemma exists_turns (h : c.Gives (a.expr kind) r) : ∃ b, a.Turns kind c b ∧ r = b.expr kind := by
  cases h with
  | distinct given =>
    obtain ⟨allows, -, rfl⟩ := Expr.of_distinctAggregate given
    refine ⟨_, .distinct allows, ?_⟩
    simp only [expr, head, keyword, Dict.insert_insert, if_true]
  | declare type => exact ⟨_, .declare type, rfl⟩
  | replace given =>
    obtain ⟨length, rfl⟩ := Expr.withSources_eq_ok_iff.1 given
    obtain ⟨source, rfl⟩ := List.length_eq_one_iff.1 length
    exact ⟨_, .replace source, rfl⟩
  | relabel renames => exact ⟨_, .relabel renames, Expr.relabel_node rfl renames⟩
  | resolve run =>
    obtain ⟨answers, fields, resolves, -⟩ := (Select.follows_resolve _ _).ok run
    obtain ⟨paths, source, part, rfl⟩ := resolves.of_single rfl rfl
    rw [paths] at fields
    exact ⟨_, .resolve (part.endsInStar fields), rfl⟩

/-- Only a kind that allows it gets distinct. -/
lemma Turns.allows (turns : a.Turns kind c b)
    (allows : a.distinct = true → kind.allowsDistinct = true) :
    b.distinct = true → kind.allowsDistinct = true := by
  cases turns with
  | distinct allowed => exact fun _ => allowed
  | declare | replace | relabel | resolve => exact allows

/-- The tree of a call counts distinct stars just when the call is distinct and its argument ends in a
star. -/
lemma isDistinctStar_expr :
    (a.expr kind).isDistinctStar = (a.distinct && a.source.endsInStar) := by
  simp [expr, Expr.isDistinctStar, Expr.isDistinct, Expr.sources]

/-- An aggregate that is not over the distinct values of a star becomes one by the calls that bring a
star to it, and by no others. -/
lemma Turns.isDistinctStar (turns : a.Turns kind c b) (none : (a.expr kind).isDistinctStar = false) :
    (b.expr kind).isDistinctStar = c.bringsStar (a.expr kind) := by
  rw [isDistinctStar_expr] at none ⊢
  cases turns with
  | distinct => simp [expr, AggregateCall.bringsStar, Expr.sources]
  | declare => exact none
  | replace source => simp [expr, AggregateCall.bringsStar, Expr.isDistinct]
  | relabel renames =>
    rw [Expr.endsInStar_relabel]
    exact none
  | resolve star =>
    rw [star, Bool.and_or_distrib_left, none, Bool.false_or]
    simp [expr, AggregateCall.bringsStar, Expr.isDistinct, Expr.sources]

/-- The texts that the template of the aggregate mentions. -/
lemma get?_context {d : Renderer} {text key : String} (mentioned : key ≠ "db_type") :
    (d.context (a.head kind) (some kind.function) text).get? key =
      if key = "expressions" then some text
      else if key = "function" then some kind.function
      else if key = "distinct" then some a.keyword else none := by
  cases type : a.type <;> simp [Renderer.context, head, type, Dict.get?_insert] <;> grind

/-- The template of an aggregate renders to its function around the text of its argument. -/
lemma render_template {d : Renderer} {text : String} :
    Template.render (a.head kind).template (d.context (a.head kind) (some kind.function) text) =
      .ok (kind.function ++ "(" ++ a.keyword ++ text ++ ")") := by
  have pieces : Template.pieces "%(function)s(%(distinct)s%(expressions)s)" =
      [.placeholder "function", .char '(', .placeholder "distinct", .placeholder "expressions",
        .char ')'] := by decide
  have template : (a.head kind).template = "%(function)s(%(distinct)s%(expressions)s)" := rfl
  simp [template, Template.render, pieces, Template.Piece.text, get?_context, bind, Except.bind, pure,
    Except.pure, String.join, String.append_assoc]

/-- A dialect without a way of its own for the kind writes the keyword in front of the source. -/
lemma render_expr {d : Renderer} (plain : d.overrides.get? d.dialect kind.label = none) :
    d.render (a.expr kind) = (d.render a.source).map
      (Fragment.mapSql fun text => kind.function ++ "(" ++ a.keyword ++ text ++ ")") := by
  have noRule : d.overrides.get? d.dialect (a.expr kind).kind = none := plain
  rw [Renderer.render_eq_generic noRule]
  show d.renderCall (a.head kind) (some kind.function) (a.head kind).template ", "
    [d.render a.source] = _
  cases d.render a.source with
  | error x => rfl
  | ok f =>
    have only : List.mapM id [Except.ok f] = (.ok [f] : Except Error (List Fragment)) := rfl
    simp only [Renderer.renderCall, only, bind, Except.bind, Fragment.join_singleton, render_template]
    rfl

end AggregateForm

/-- What calls make of an aggregate is an aggregate of its kind, and distinct only where the kind allows
that. -/
lemma Made.form (made : Made allowed kind source e) :
    ∃ a : AggregateForm, e = a.expr kind ∧ (a.distinct = true → kind.allowsDistinct = true) := by
  induction made with
  | new => exact ⟨⟨source, false, none, false⟩, rfl, nofun⟩
  | call _ _ gives ih =>
    obtain ⟨a, rfl, allows⟩ := ih
    obtain ⟨b, turns, rfl⟩ := AggregateForm.exists_turns gives
    exact ⟨b, rfl, turns.allows allows⟩

/-- A call brings a star, or leaves an aggregate without one. -/
lemma Made.isDistinctStar_of_gives (made : Made allowed kind source e) (gives : c.Gives e r)
    (none : e.isDistinctStar = false) : r.isDistinctStar = c.bringsStar e := by
  obtain ⟨a, rfl, -⟩ := made.form
  obtain ⟨b, turns, rfl⟩ := AggregateForm.exists_turns gives
  exact turns.isDistinctStar none

/-- As long as no call brings a star, no aggregate is over the distinct values of one. -/
lemma Made.isDistinctStar (made : Made (fun c e => c.bringsStar e = false) kind source e) :
    e.isDistinctStar = false := by
  induction made with
  | new => rfl
  | call made free gives ih => exact (made.isDistinctStar_of_gives gives ih).trans free

/-- Whatever calls make of an aggregate is one of the same kind over a single source; it has the keyword
for distinct values, and is written with it, exactly when it is distinct; and only counts, sums and
averages can be. It is over the distinct values of a star only after a call that brought the star: one
that made it distinct over a reference or declared type that ends in a star, replaced its source by a
star while it was distinct, or resolved its field path to such a reference. -/
theorem distinct_aggregates (kind : AggregateKind) (source : Expr) :
    (∀ allowed e, Made allowed kind source e → ∃ a : AggregateForm, e = a.expr kind ∧
      (a.distinct = true → kind = .count ∨ kind = .sum ∨ kind = .avg) ∧
      ∀ d : Renderer, d.overrides.get? d.dialect kind.label = none →
        d.render e = (d.render a.source).map
          (Fragment.mapSql fun text => kind.function ++ "(" ++ a.keyword ++ text ++ ")")) ∧
    (∀ allowed (c : AggregateCall) (e r : Expr), Made allowed kind source e →
      e.isDistinctStar = false → c.Gives e r → r.isDistinctStar = c.bringsStar e) ∧
    ∀ e, Made (fun c e => c.bringsStar e = false) kind source e → e.isDistinctStar = false := by
  refine ⟨fun allowed e made => ?_, fun _ _ _ _ made none gives => ?_, fun _ => Made.isDistinctStar⟩
  · obtain ⟨a, rfl, allows⟩ := made.form
    refine ⟨a, rfl, fun distinct => ?_, fun d => AggregateForm.render_expr⟩
    have allows := allows distinct
    cases kind with
    | count | sum | avg => decide
    | _ => contradiction
  · exact made.isDistinctStar_of_gives gives none

/-- A count of distinct pays, resolved in the table of all staff. -/
theorem distinct_aggregates_pay :
    let pay : AggregateForm := ⟨.column "T2" "pay" (some .integer), true, none, false⟩
    Made (fun c e => c.bringsStar e = false) .count (.field "pay") (pay.expr .count) ∧
      (pay.expr .count).isDistinctStar = false := by
  intro pay
  let field : AggregateForm := ⟨.field "pay", true, none, false⟩
  have distinct : Made (fun c e => c.bringsStar e = false) .count (.field "pay") (field.expr .count) :=
    .call .new rfl (.distinct rfl)
  have resolved : (Select.resolve {} (field.expr .count)).on Select.allStaff =
      (.ok (pay.expr .count), Select.allStaff) := rfl
  have made := distinct.call rfl (.resolve resolved)
  exact ⟨made, (distinct_aggregates .count (.field "pay")).2.2 _ made⟩

/-- A star with a declared type is counted by its distinct values. -/
theorem distinct_star_typed :
    let star : AggregateForm := ⟨.typed .star .integer, true, none, false⟩
    Made (fun _ _ => True) .count (.typed .star .integer) (star.expr .count) ∧
      (star.expr .count).isDistinctStar = true ∧
      (Renderer.standard .postgres).render (star.expr .count) = .ok (.raw "COUNT(DISTINCT *)") := by
  intro star
  refine ⟨.call .new trivial (.distinct rfl), rfl, ?_⟩
  rw [AggregateForm.render_expr rfl]
  rfl

end BoundSql
