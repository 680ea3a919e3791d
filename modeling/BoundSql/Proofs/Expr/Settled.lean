import BoundSql.Proofs.Expr.Resolved

/-!
# Settled trees

A node is `Settled` when it is no field path, holds as many sources as it takes, and does not
aggregate aggregates. Resolution settles each node that it reaches, and it reaches those outside of
references (`ResolvesTo.outsideRefs`): a node there is a column or reference that answers a path, a
reference of the tree itself, or a node of the tree over sources that it accepts.
-/

namespace BoundSql.Expr

/-- The node is as resolution leaves it. -/
structure Settled (n : Expr) : Prop where
  field : n.isField = false
  arity : n.checkArity = .ok ()
  flat : n.isAggregate = true → ∀ s ∈ n.sources, s.containsAggregate = false

/-- If the node is an aggregate, then it is one over all rows or not, as given. -/
def SummarizesAs (summarize : Bool) (n : Expr) : Prop :=
  ∀ kind head args distinct summary, n = .aggregate kind head args distinct summary →
    summary = summarize

/-- The node stands in the tree, and no node above it is a reference. -/
inductive OutsideRefs (n : Expr) : Expr → Prop where
  | root : OutsideRefs n n
  | source {e s : Expr} : e.isRef = false → s ∈ e.sources → OutsideRefs n s → OutsideRefs n e

variable {summarize : Bool} {e r m n : Expr} {answers sources : List Expr}

instance (n : Expr) : Decidable n.Settled :=
  decidable_of_iff (n.isField = false ∧ n.checkArity = .ok () ∧
      (n.isAggregate = true → ∀ s ∈ n.sources, s.containsAggregate = false))
    ⟨fun h => ⟨h.1, h.2.1, h.2.2⟩, fun h => ⟨h.field, h.arity, h.flat⟩⟩

/-- A column needs no resolving. -/
lemma settled_of_isColumn (h : n.isColumn = true) : n.Settled := by
  cases n with
  | column => exact ⟨rfl, checkArity_eq_ok_iff.2 rfl, nofun⟩
  | _ => cases h

/-- A reference needs no resolving. -/
lemma settled_of_isRef (h : n.isRef = true) : n.Settled := by
  cases n with
  | ref => exact ⟨rfl, checkArity_eq_ok_iff.2 rfl, nofun⟩
  | _ => cases h

/-- A connective needs no resolving of its own. -/
lemma settled_logic (connective : Connective) (parts : List Expr) (negated : Bool) :
    (logic connective parts negated).Settled :=
  ⟨rfl, checkArity_eq_ok_iff.2 rfl, nofun⟩

/-- A sort key needs no resolving of its own. -/
lemma settled_sorted (source : Expr) (direction : SortDirection) (nulls : NullPlacement) :
    (sorted source direction nulls).Settled :=
  ⟨rfl, checkArity_eq_ok_iff.2 rfl, nofun⟩

/-- Putting resolved sources into a node neither makes nor removes an aggregate. -/
lemma isAggregate_rebound (e : Expr) (summarize : Bool) (sources : List Expr) :
    (e.rebound summarize sources).isAggregate = e.isAggregate := by
  unfold rebound
  split
  · rfl
  · exact isAggregate_replaceSources _ sources

/-- A node over as many other sources takes as many of them as before. -/
lemma arity_rebound (summarize : Bool) (length : sources.length = e.sources.length) :
    (e.rebound summarize sources).arity = e.arity := by
  cases e with
  | aggregate => rfl
  | _ => exact arity_replaceSources length

/-- A node over sources that it accepts is settled. -/
lemma Accepts.settled (h : m.Accepts sources) (summarize : Bool) :
    (m.rebound summarize sources).Settled where
  field := by rw [isField_rebound, h.field]
  arity := by
    rw [checkArity_eq_ok_iff, sources_rebound summarize h.length, arity_rebound summarize h.length,
      h.length]
    exact checkArity_eq_ok_iff.1 h.arity
  flat aggregate s mem := by
    rw [isAggregate_rebound] at aggregate
    rw [sources_rebound summarize h.length] at mem
    exact h.flat aggregate s mem

/-- An aggregate that resolved sources are put into is over all rows or not, as asked for. -/
lemma summarizesAs_rebound (m : Expr) (summarize : Bool) (sources : List Expr) :
    (m.rebound summarize sources).SummarizesAs summarize := by
  intro kind head args distinct summary eq
  cases m with
  | aggregate =>
    cases eq
    rfl
  | _ =>
    -- only an aggregate is rebuilt to one
    have other := congrArg isAggregate eq
    rw [isAggregate_rebound] at other
    cases other

/-- A node of a resolved tree outside of references is a column or reference, or a node over sources
that it accepts. -/
lemma ResolvesTo.outsideRefs (h : e.ResolvesTo summarize answers r)
    (answered : ∀ a ∈ answers, a.isColumn = true ∨ a.isRef = true) (outside : n.OutsideRefs r) :
    n.isColumn = true ∨ n.isRef = true ∨
      ∃ (m : Expr) (sources : List Expr), m.Accepts sources ∧ n = m.rebound summarize sources := by
  induction e using Expr.induction generalizing answers r with
  | node e ih =>
    cases field : e.isField with
    | true =>
      cases e with
      | field =>
        obtain rfl := resolvesTo_field.1 h
        have leaf := answered r (List.mem_singleton_self r)
        cases outside with
        | root => exact leaf.imp_right .inl
        | source plain mem _ =>
          cases r with
          | column => cases mem
          | ref => cases plain
          | _ => simp [isColumn, isRef] at leaf
      | _ => contradiction
    | false =>
    cases ref : e.isRef with
    | true =>
      cases e with
      | ref =>
        obtain ⟨-, rfl⟩ := resolvesTo_ref.1 h
        cases outside with
        | root => exact .inr (.inl rfl)
        | source plain _ _ => cases plain
      | _ => contradiction
    | false =>
    -- any other node is put over what its sources resolve to
    obtain ⟨resolved, parts, rfl, rfl, accepts⟩ := h.accepts field ref
    cases outside with
    | root => exact .inr (.inr ⟨e, _, accepts, rfl⟩)
    | source _ mem below =>
      rw [sources_rebound summarize accepts.length] at mem
      obtain ⟨a, memA, rfl⟩ := List.mem_map.1 mem
      obtain ⟨s, memS, part⟩ := exists_of_forall₂ parts memA
      exact ih s memS part (fun x memX => answered x (List.mem_flatMap.2 ⟨a, memA, memX⟩)) below

/-- Outside of references a resolved tree is settled, and its aggregates are over all rows or not as
it was resolved. -/
lemma ResolvesTo.settled (h : e.ResolvesTo summarize answers r)
    (answered : ∀ a ∈ answers, a.isColumn = true ∨ a.isRef = true) (outside : n.OutsideRefs r) :
    n.Settled ∧ n.SummarizesAs summarize := by
  rcases h.outsideRefs answered outside with column | ref | ⟨m, sources, accepts, rfl⟩
  · refine ⟨settled_of_isColumn column, ?_⟩
    rintro _ _ _ _ _ rfl
    cases column
  · refine ⟨settled_of_isRef ref, ?_⟩
    rintro _ _ _ _ _ rfl
    cases ref
  · exact ⟨accepts.settled summarize, summarizesAs_rebound m summarize sources⟩

end BoundSql.Expr
