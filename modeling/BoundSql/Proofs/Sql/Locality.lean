import BoundSql.Expr.Functions
import BoundSql.Proofs.Expr.Within
import BoundSql.Select.Statement

/-!
# What an override reaches

To render a node, a renderer looks up the override for the kind of the node on its own dialect, and
nothing else in its table (`renderNode_eq_of_get?`). Every rule for a node, generic or custom, takes
the sources as they were rendered, so that by induction on the tree two tables that agree on the kinds
that occur in it render it alike (`render_eq_of_get?`). The kinds of calls are free, and any text may
be one.
-/

namespace BoundSql

/-- The table with more overrides, where a later one replaces an earlier one. -/
def Overrides.insertAll (o : Overrides) (more : List ((Dialect × String) × Override)) : Overrides :=
  more.foldl (fun o entry => o.insert entry.1.1 entry.1.2 entry.2) o

/-- A dialect for which nothing is inserted has the overrides that it had. -/
lemma Overrides.get?_insertAll {o : Overrides} {more : List ((Dialect × String) × Override)}
    {d : Dialect} (others : ∀ entry ∈ more, entry.1.1 ≠ d) (kind : String) :
    (o.insertAll more).get? d kind = o.get? d kind := by
  induction more generalizing o with
  | nil => rfl
  | cons entry rest ih =>
    obtain ⟨other, later⟩ := List.forall_mem_cons.1 others
    calc (o.insertAll (entry :: rest)).get? d kind
      _ = (o.insert entry.1.1 entry.1.2 entry.2).get? d kind := ih later
      _ = o.get? d kind := by
        rw [get?_insert, if_neg]
        rintro ⟨same, -⟩
        exact other same

variable {r : Renderer} {o : Overrides} {e : Expr}

namespace Renderer

/-- The rendering of a node depends on the overrides for its kind only. -/
lemma renderNode_eq_of_get?
    (same : o.get? r.dialect e.kind = r.overrides.get? r.dialect e.kind) :
    renderNode { r with overrides := o } e = r.renderNode e := by
  funext sources
  rw [renderNode, renderNode]
  dsimp only
  rw [same]
  -- the rules themselves read nothing but the dialect
  rfl

/-- The rendering of a tree depends on the overrides for the kinds of its nodes only. -/
lemma render_eq_of_get?
    (same : ∀ n : Expr, n.Within e → o.get? r.dialect n.kind = r.overrides.get? r.dialect n.kind) :
    render { r with overrides := o } e = r.render e := by
  induction e using Expr.induction with
  | node e ih =>
    have sources : e.sources.map (render { r with overrides := o }) = e.sources.map r.render :=
      List.map_congr_left fun s mem => ih s mem fun n within => same n (.source mem within)
    rw [render_eq, render_eq, sources, renderNode_eq_of_get? (same e .root)]

end Renderer

/-- A statement depends on the overrides through its expressions only. -/
lemma Select.render_eq_of_render (same : Renderer.render { r with overrides := o } = r.render)
    (s : Select) : s.render { r with overrides := o } = s.render r := by
  have list (separator : String) (es : List Expr) :
      Renderer.renderList { r with overrides := o } separator es = r.renderList separator es := by
    rw [Renderer.renderList, Renderer.renderList, same]
  have clause (keyword separator : String) (es : List Expr) :
      renderClause { r with overrides := o } keyword separator es =
        renderClause r keyword separator es := by
    rw [renderClause, renderClause, list]
  have named : renderNamed { r with overrides := o } = renderNamed r := by
    funext entry
    rw [renderNamed, renderNamed, same]
  have selected : s.renderSelected { r with overrides := o } = s.renderSelected r := by
    rw [renderSelected, renderSelected, same, named]
  rw [Select.render, Select.render, selected, clause, clause, clause, clause]
  rfl

namespace Renderer

/-- An override for a kind leaves the rendering of each tree without a node of that kind as it is, be
it a fragment or an error. Overrides for other dialects, any number of them, change no rendering of a
tree and no statement. -/
theorem overrides_local (r : Renderer) :
    (∀ kind value, ∀ e : Expr, e.Throughout (·.kind ≠ kind) →
      (r.withOverride kind value).render e = r.render e) ∧
    ∀ others : List ((Dialect × String) × Override), (∀ entry ∈ others, entry.1.1 ≠ r.dialect) →
      (∀ e : Expr, render { r with overrides := r.overrides.insertAll others } e = r.render e) ∧
        ∀ s : Select, s.render { r with overrides := r.overrides.insertAll others } = s.render r := by
  constructor
  · intro kind value e absent
    apply render_eq_of_get?
    intro n within
    rw [Overrides.get?_insert, if_neg]
    rintro ⟨-, same⟩
    exact absent n within same.symm
  · intro others elsewhere
    have same (e : Expr) :
        render { r with overrides := r.overrides.insertAll others } e = r.render e :=
      render_eq_of_get? fun n _ => Overrides.get?_insertAll elsewhere n.kind
    exact ⟨same, Select.render_eq_of_render (funext same)⟩

/-- A power under a name, in a call that has chosen the kind of references for itself. -/
def namedVolume : Expr :=
  .ref "volume" (.call { CallHead.ofFunction "ROUND" with name := "Ref" }
    [.arith (.column "T" "side" (some .integer)) .pow (.literal (.integer 3) none) none])

/-- An override for calls of the same function, but of another kind, does not reach the call, and
neither do those of other dialects for its own kind and for powers. -/
theorem overrides_local_namedVolume :
    let r := (standard .sqlite).withOverride "Ref" (.function "CEIL")
    let others := [((.mysql, "Ref"), .unsupported),
      ((.postgres, "CombinedExpression"), .custom (.constant (.ok (.raw "?"))))]
    (r.render namedVolume).toOption.map Fragment.sql = some "CEIL(POWER(\"T\".\"side\", ?))" ∧
      (r.withOverride "ROUND" .unsupported).render namedVolume = r.render namedVolume ∧
      render { r with overrides := r.overrides.insertAll others } namedVolume =
        r.render namedVolume := by
  intro r others
  have ⟨otherKinds, otherDialects⟩ := overrides_local r
  have absent : namedVolume.Throughout (·.kind ≠ "ROUND") := by decide
  have elsewhere : ∀ entry ∈ others, entry.1.1 ≠ r.dialect := by decide
  refine ⟨?_, otherKinds "ROUND" .unsupported _ absent, (otherDialects others elsewhere).1 _⟩
  decide +kernel

end Renderer

end BoundSql
