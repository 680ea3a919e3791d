import BoundSql.Expr.Sources
import Mathlib.Data.List.Basic

/-!
# Nodes over other sources

A node over as many other sources has these as its sources (`sources_replaceSources`) and is of the same
kind and arity. Running the actions for the sources one after another gives the node over their results
(`rebuild_eq`).
-/

namespace BoundSql.Expr

/-- The check of the arity passes just when a node has as many sources as it asks for. -/
lemma checkArity_eq_ok_iff {e : Expr} : e.checkArity = .ok () ↔ e.sources.length = e.arity := by
  rw [checkArity, expectSources]
  split
  · exact iff_of_true rfl ‹_›
  · exact iff_of_false (by rintro ⟨⟩) ‹_›

/-- A node over as many other sources has these as its sources. -/
lemma sources_replaceSources {e : Expr} {sources : List Expr}
    (length : sources.length = e.sources.length) : (e.replaceSources sources).sources = sources := by
  cases e with
  | field | column | literal | star =>
    exact (List.eq_nil_of_length_eq_zero length).symm
  | call | aggregate | logic => rfl
  | ref | sorted | typed =>
    obtain ⟨s, rfl⟩ := List.length_eq_one_iff.1 length
    rfl
  | arith | compare =>
    obtain ⟨s, t, rfl⟩ := List.length_eq_two.1 length
    rfl

/-- A node with its own sources put back is the same node. -/
lemma replaceSources_sources (e : Expr) : e.replaceSources e.sources = e := by
  cases e <;> rfl

/-- Of two replacements the latter counts. -/
lemma replaceSources_replaceSources {e : Expr} {sources others : List Expr}
    (length : sources.length = e.sources.length) (length' : others.length = e.sources.length) :
    (e.replaceSources sources).replaceSources others = e.replaceSources others := by
  cases e with
  | field | column | literal | star | call | aggregate | logic => rfl
  | ref | sorted | typed =>
    obtain ⟨s, rfl⟩ := List.length_eq_one_iff.1 length
    obtain ⟨t, rfl⟩ := List.length_eq_one_iff.1 length'
    rfl
  | arith | compare =>
    obtain ⟨s, t, rfl⟩ := List.length_eq_two.1 length
    obtain ⟨s', t', rfl⟩ := List.length_eq_two.1 length'
    rfl

/-- New sources leave the kind of a node as it is. -/
lemma kind_replaceSources (e : Expr) (sources : List Expr) :
    (e.replaceSources sources).kind = e.kind := by
  unfold replaceSources
  split <;> rfl

/-- New sources leave an aggregate an aggregate. -/
lemma isAggregate_replaceSources (e : Expr) (sources : List Expr) :
    (e.replaceSources sources).isAggregate = e.isAggregate := by
  unfold replaceSources
  split <;> rfl

/-- A node over as many other sources takes as many of them as before. -/
lemma arity_replaceSources {e : Expr} {sources : List Expr}
    (length : sources.length = e.sources.length) : (e.replaceSources sources).arity = e.arity := by
  cases e with
  | field | column | literal | star | aggregate => rfl
  | logic => exact length
  | call head args => exact congrArg (head.arity.map UInt64.toNat).getD length
  | ref | sorted | typed =>
    obtain ⟨s, rfl⟩ := List.length_eq_one_iff.1 length
    rfl
  | arith | compare =>
    obtain ⟨s, t, rfl⟩ := List.length_eq_two.1 length
    rfl

/-- So it is refused for the number of its sources when the node itself is. -/
lemma checkArity_replaceSources {e : Expr} {sources : List Expr}
    (length : sources.length = e.sources.length) :
    (e.replaceSources sources).checkArity = e.checkArity := by
  rw [checkArity, checkArity, sources_replaceSources length, expectSources, expectSources, length,
    arity_replaceSources length, kind_replaceSources]

/-- Rebuilding a node runs the actions for its sources and puts the results in their place. -/
lemma rebuild_eq {m : Type → Type} [Monad m] [LawfulMonad m] (e : Expr) {actions : List (m Expr)}
    (length : actions.length = e.sources.length) :
    e.rebuild actions = do return e.replaceSources (← actions.mapM id) := by
  cases e with
  | field | column | literal | star =>
    obtain rfl := List.eq_nil_of_length_eq_zero length
    simp [rebuild, replaceSources]
  | call | aggregate | logic => rfl
  | ref | sorted | typed =>
    obtain ⟨s, rfl⟩ := List.length_eq_one_iff.1 length
    simp [rebuild, replaceSources]
  | arith | compare =>
    obtain ⟨s, t, rfl⟩ := List.length_eq_two.1 length
    simp [rebuild, replaceSources]

end BoundSql.Expr
