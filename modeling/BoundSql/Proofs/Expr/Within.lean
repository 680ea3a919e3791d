import BoundSql.Clause
import BoundSql.Expr.Aggregation
import Mathlib.Data.List.Basic

/-!
# Nodes of a tree

`n.Within e` says that the node `n` stands somewhere in the tree `e`: at its root, or within one of
the sources. Sources are followed through references, declared types and aggregates alike. What the
operations on predicates do to their nodes is stated by it: where the conjuncts of a predicate stand
(`Within.of_mem_conjuncts`), and what a negated predicate keeps (`Throughout.negate`).
-/

namespace BoundSql.Expr

/-- Whether the node is a path that is not resolved yet. -/
def isField : Expr → Bool
  | .field _ => true
  | _ => false

/-- Whether the node is a column of a table. -/
def isColumn : Expr → Bool
  | .column .. => true
  | _ => false

/-- Whether the node is a reference to a computed column. -/
def isRef : Expr → Bool
  | .ref .. => true
  | _ => false

/-- The node stands in the tree. -/
inductive Within (n : Expr) : Expr → Prop where
  /-- At the root. -/
  | root : Within n n
  /-- In a source of the root. -/
  | source {e s : Expr} : s ∈ e.sources → Within n s → Within n e

/-- A node stands at the root or in a source of the root. -/
lemma within_iff {n e : Expr} : n.Within e ↔ n = e ∨ ∃ s ∈ e.sources, n.Within s := by
  constructor
  · intro h
    cases h with
    | root => exact .inl rfl
    | source mem h => exact .inr ⟨_, mem, h⟩
  · rintro (rfl | ⟨s, mem, h⟩)
    · exact .root
    · exact .source mem h

/-- A node of a subtree is a node of the tree. -/
lemma Within.trans {l m n : Expr} (h : l.Within m) (h' : m.Within n) : l.Within n := by
  induction h' with
  | root => exact h
  | source mem _ ih => exact .source mem ih

/-- A source of a node lies within it. -/
lemma Within.of_mem {s e : Expr} (mem : s ∈ e.sources) : s.Within e :=
  .source mem .root

/-- The property holds of every node of the tree. -/
def Throughout (p : Expr → Prop) (e : Expr) : Prop :=
  ∀ n : Expr, n.Within e → p n

/-- All nodes of a tree, each before those of its sources. -/
def nodes : Expr → List Expr :=
  fold fun e nodes => e :: nodes.flatten

/-- The nodes of a tree are those that stand in it. -/
lemma mem_nodes_iff {n e : Expr} : n ∈ e.nodes ↔ n.Within e := by
  induction e using Expr.induction with
  | node e ih =>
    rw [nodes, fold_eq, ← List.flatMap_def, List.mem_cons, List.mem_flatMap, within_iff]
    refine or_congr_right (exists_congr fun s => and_congr_right fun mem => ?_)
    exact ih s mem

instance {p : Expr → Prop} [DecidablePred p] (e : Expr) : Decidable (e.Throughout p) :=
  decidable_of_iff (∀ n ∈ e.nodes, p n) (forall_congr' fun _ => imp_congr_left mem_nodes_iff)

/-- What holds throughout a tree holds throughout every tree within it. -/
lemma Throughout.within {p : Expr → Prop} {m e : Expr} (h : e.Throughout p) (within : m.Within e) :
    m.Throughout p :=
  fun n inside => h n (inside.trans within)

/-- A property of the root and of every node of the sources holds of every node. -/
lemma Throughout.of_sources {p : Expr → Prop} {e : Expr} (root : p e)
    (sources : ∀ s ∈ e.sources, s.Throughout p) : e.Throughout p := by
  intro n within
  cases within with
  | root => exact root
  | source mem within => exact sources _ mem n within

/-- A property holds throughout a tree just when it holds of the root and throughout every source. -/
lemma throughout_iff {p : Expr → Prop} {e : Expr} :
    e.Throughout p ↔ p e ∧ ∀ s ∈ e.sources, s.Throughout p := by
  constructor
  · intro h
    exact ⟨h e .root, fun s mem => h.within (.of_mem mem)⟩
  · rintro ⟨root, sources⟩
    exact .of_sources root sources

/-- In a tree without sources only the root counts. -/
lemma Throughout.of_leaf {p : Expr → Prop} {e : Expr} (leaf : e.sources = []) (root : p e) :
    e.Throughout p := by
  apply Throughout.of_sources root
  rw [leaf]
  exact List.forall_mem_nil _

/-- In a tree with one source its root and that source count. -/
lemma Throughout.of_source {p : Expr → Prop} {e s : Expr} (single : e.sources = [s]) (root : p e)
    (source : s.Throughout p) : e.Throughout p := by
  apply Throughout.of_sources root
  rw [single]
  exact List.forall_mem_singleton.2 source

/-- A tree contains an aggregate exactly when one of its nodes is one. -/
lemma containsAggregate_iff (e : Expr) :
    e.containsAggregate = true ↔ ∃ n : Expr, n.Within e ∧ n.isAggregate = true := by
  induction e using Expr.induction with
  | node e ih =>
    rw [containsAggregate_eq, Bool.or_eq_true, List.any_eq_true]
    constructor
    · rintro (h | ⟨s, mem, h⟩)
      · exact ⟨e, .root, h⟩
      · obtain ⟨n, within, h⟩ := (ih s mem).1 h
        exact ⟨n, .source mem within, h⟩
    · rintro ⟨n, within, h⟩
      cases within with
      | root => exact .inl h
      | source mem within => exact .inr ⟨_, mem, (ih _ mem).2 ⟨n, within, h⟩⟩

/-- The sources of a negation are those of the predicate, or the predicate itself. -/
lemma negate_eq (e : Expr) :
    ∃ c parts negated, e.negate = .logic c parts negated ∧ (parts = e.sources ∨ parts = [e]) := by
  cases e with
  | logic c parts negated => exact ⟨c, parts, !negated, rfl, .inl rfl⟩
  | _ => exact ⟨.and, _, true, rfl, .inr rfl⟩

/-- The negation of a predicate has the nodes of the predicate below its own root. -/
lemma Throughout.negate {p : Expr → Prop} {e : Expr} (h : e.Throughout p)
    (logic : ∀ c parts negated, p (.logic c parts negated)) : e.negate.Throughout p := by
  obtain ⟨c, parts, negated, eq, parts_eq⟩ := e.negate_eq
  rw [eq]
  refine .of_sources (logic c parts negated) fun s mem => ?_
  rcases parts_eq with rfl | rfl
  · exact h.within (.of_mem mem)
  · obtain rfl := List.mem_singleton.1 mem
    exact h

/-- Every conjunct of a predicate is one of its nodes. -/
lemma Within.of_mem_conjuncts {p e : Expr} (h : p ∈ e.conjuncts) : p.Within e := by
  induction e using Expr.induction with
  | node e ih =>
    unfold conjuncts at h
    split at h
    · rename_i parts
      rw [conjunctsList_eq_flatMap] at h
      obtain ⟨part, mem, h⟩ := List.mem_flatMap.1 h
      exact .source mem (ih part mem h)
    · obtain rfl := List.mem_singleton.1 h
      exact .root

end BoundSql.Expr
