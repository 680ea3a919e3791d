import BoundSql.Proofs.Expr.Twin
import BoundSql.Proofs.Sql.Congruence

/-!
# Rendered twins

Twins render alike in every dialect: to one text, with parameters that are related one by one, or to
one error. The induction is on the tree; `Renderer.twin_renderNode` is its step: but for a literal, the
twin of a node is the node over other sources, and being twins goes through rendering.
-/

namespace BoundSql

namespace Fragment

/-- The same text, with parameters that are related one by one. -/
structure Twin (R : Value → Value → Prop) (a b : Fragment) : Prop where
  sql : a.sql = b.sql
  params : List.Forall₂ R a.params b.params

variable {R : Value → Value → Prop} {a b : Fragment}

lemma twin_raw (sql : String) : (raw sql).Twin R (raw sql) := ⟨rfl, .nil⟩

/-- A change of the text keeps twins twins. -/
lemma Twin.mapSql (h : a.Twin R b) (f : String → String) : (a.mapSql f).Twin R (b.mapSql f) :=
  ⟨congrArg f h.sql, h.params⟩

/-- Rows of twins are twins. -/
lemma twin_join (separator : String) {parts parts' : List Fragment}
    (h : List.Forall₂ (Twin R) parts parts') :
    (join separator parts).Twin R (join separator parts') where
  sql := by
    have texts : parts.map (·.sql) = parts'.map (·.sql) :=
      map_eq_of_forall₂ (fun twin => twin.sql) h
    rw [join, join, texts]
  params := List.rel_flatMap h fun _ _ twin => twin.params

/-- Every way to build a fragment takes twins to twins. -/
lemma congruence_twin (R : Value → Value → Prop) : Congruence (Twin R) where
  join separator := twin_join separator
  fill {f a b} _ twin := by
    -- both texts are the same, and so is what is made of them
    rw [twin.sql]
    cases f b.sql with
    | ok sql => exact .ok ⟨rfl, twin.params⟩
    | error => exact .error rfl

end Fragment

/-- Both render, to fragments that are twins, or fail with the same error. -/
abbrev SameRendering (R : Value → Value → Prop) (x y : Except Error Fragment) : Prop :=
  SameOutcome Eq (Fragment.Twin R) x y

namespace Renderer

variable {R : Value → Value → Prop} {e e' : Expr} {d : Dialect}
  {parts parts' : List (Except Error Fragment)} (same : ∀ v v', R v v' → v.SameVariant v')
include same

/-- Twins over sources that render alike render alike. -/
lemma twin_renderNode (h : e.Twin R e') (length : parts.length = e.sources.length)
    (sources : List.Forall₂ (SameRendering R) parts parts') :
    SameRendering R ((standard d).renderNode e parts) ((standard d).renderNode e' parts') := by
  by_cases literal : ∃ v type, e = .literal v type
  · obtain ⟨v, type, rfl⟩ := literal
    cases h with
    | literal related => cases d <;> exact .ok ⟨rfl, .cons related .nil⟩
  · have types := h.sources.imp fun _ _ twin => twin.type? same
    have shapes := h.sources.imp fun _ _ twin => twin.isArithmetic
    have length' : parts'.length = e.sources.length := by rw [← sources.length_eq, length]
    rw [h.eq_replaceSources fun v type eq => literal ⟨v, type, eq⟩,
      renderNode_replaceSources length' types shapes]
    exact (Fragment.congruence_twin R).renderNode (fun v type eq => absurd ⟨v, type, eq⟩ literal)
      length sources

/-- Twins render alike. -/
theorem twin_render (h : e.Twin R e') :
    SameRendering R ((standard d).render e) ((standard d).render e') :=
  h.fold fun twin length sources => twin_renderNode same twin length sources

end Renderer

end BoundSql
