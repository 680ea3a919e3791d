import BoundSql.Proofs.Except
import BoundSql.Proofs.Expr.Sources
import BoundSql.Proofs.Expr.Within

/-!
# Resolved trees

What a tree looks like once its field paths are answered. The answers stand at the places of the
paths, in order; references stay as they are; every other node is the same over its resolved
sources, except that an aggregate takes on whether it summarizes all rows. `ResolvesTo` is the
relation, and `ResolvesTo.within` tells where each node of the result comes from.
-/

namespace BoundSql.Expr

/-- The field paths of a tree that stand in no reference, in order. -/
def fieldPaths : Expr → List String :=
  fold fun e paths =>
    match e with
    | .field path => [path]
    | .ref .. => []
    | _ => paths.flatten

/-- A tree asks for its field paths from left to right, and for none under a reference. -/
lemma fieldPaths_eq (e : Expr) :
    e.fieldPaths = match e with
      | .field path => [path]
      | .ref .. => []
      | _ => e.sources.flatMap fieldPaths := by
  rw [fieldPaths, fold_eq, List.flatMap_def]

/-- The node over resolved sources. -/
def rebound (summarize : Bool) : Expr → List Expr → Expr
  | .aggregate kind head _ distinct _, args => .aggregate kind head args distinct summarize
  | e, sources => e.replaceSources sources

/-- A node over as many resolved sources has these as its sources. -/
lemma sources_rebound {e : Expr} {sources : List Expr} (summarize : Bool)
    (length : sources.length = e.sources.length) :
    (e.rebound summarize sources).sources = sources := by
  cases e with
  | aggregate => rfl
  | _ => exact sources_replaceSources length

/-- The tree resolves to another one by the answers for its field paths. Each node holds as many
sources as it takes, and no aggregate aggregates again. -/
def ResolvesTo (summarize : Bool) : Expr → List Expr → Expr → Prop :=
  fold fun e parts answers r =>
    match e with
    | .field _ => answers = [r]
    | .ref .. => answers = [] ∧ r = e
    | _ => e.checkArity = .ok () ∧ ∃ resolved : List (List Expr × Expr),
        List.Forall₂ (fun part a => part a.1 a.2) parts resolved ∧
        answers = resolved.flatMap (·.1) ∧ r = e.rebound summarize (resolved.map (·.2)) ∧
        (e.isAggregate = true → ∀ a ∈ resolved, a.2.containsAggregate = false)

variable {summarize : Bool} {e r n : Expr} {answers : List Expr}

/-- A field resolves to the one answer that it has. -/
lemma resolvesTo_field {path : String} :
    (field path).ResolvesTo summarize answers r ↔ answers = [r] := by
  rw [ResolvesTo, fold_eq]

/-- A reference asks for no answer and resolves to itself. -/
lemma resolvesTo_ref {name : String} {source : Expr} :
    (ref name source).ResolvesTo summarize answers r ↔ answers = [] ∧ r = ref name source := by
  rw [ResolvesTo, fold_eq]

/-- Any other node resolves by resolving its sources. -/
lemma resolvesTo_node (field : e.isField = false) (ref : e.isRef = false) :
    e.ResolvesTo summarize answers r ↔
      e.checkArity = .ok () ∧ ∃ resolved : List (List Expr × Expr),
        List.Forall₂ (fun s a => s.ResolvesTo summarize a.1 a.2) e.sources resolved ∧
        answers = resolved.flatMap (·.1) ∧ r = e.rebound summarize (resolved.map (·.2)) ∧
        (e.isAggregate = true → ∀ a ∈ resolved, a.2.containsAggregate = false) := by
  rw [ResolvesTo, fold_eq]
  cases e with
  | field | ref => contradiction
  | _ => simp only [List.forall₂_map_left_iff]

/-- Resolution can put the node over the sources: it holds as many as it takes, and if it is an
aggregate then none of them aggregates. -/
structure Accepts (m : Expr) (sources : List Expr) : Prop where
  field : m.isField = false
  ref : m.isRef = false
  arity : m.checkArity = .ok ()
  length : sources.length = m.sources.length
  flat : m.isAggregate = true → ∀ s ∈ sources, s.containsAggregate = false

/-- A node that is not a field or reference resolves to itself over the resolved sources, and accepts
these. -/
lemma ResolvesTo.accepts (h : e.ResolvesTo summarize answers r) (field : e.isField = false)
    (ref : e.isRef = false) :
    ∃ resolved : List (List Expr × Expr),
      List.Forall₂ (fun s a => s.ResolvesTo summarize a.1 a.2) e.sources resolved ∧
      answers = resolved.flatMap (·.1) ∧ r = e.rebound summarize (resolved.map (·.2)) ∧
      e.Accepts (resolved.map (·.2)) := by
  obtain ⟨arity, resolved, parts, given, rebuilt, flat⟩ := (resolvesTo_node field ref).1 h
  refine ⟨resolved, parts, given, rebuilt, field, ref, arity, ?_, fun aggregate s mem => ?_⟩
  · rw [List.length_map, parts.length_eq]
  · obtain ⟨a, result, rfl⟩ := List.mem_map.1 mem
    exact flat aggregate a result

/-- A node with one source resolves by the answers for that source. -/
lemma ResolvesTo.of_single {source : Expr} (h : e.ResolvesTo summarize answers r)
    (direct : e.isRef = false) (only : e.sources = [source]) :
    e.fieldPaths = source.fieldPaths ∧
      ∃ resolved, source.ResolvesTo summarize answers resolved ∧ r = e.rebound summarize [resolved] := by
  have inner : e.isField = false := by
    cases e with
    | field => cases only
    | _ => rfl
  constructor
  · rw [fieldPaths_eq]
    cases e with
    | field | ref => contradiction
    | _ => simp [only]
  · obtain ⟨-, resolved, parts, rfl, rfl, -⟩ := (resolvesTo_node inner direct).1 h
    rw [only] at parts
    cases parts with
    | @cons _ answer _ _ part rest =>
      cases rest
      exact ⟨answer.2, by simpa using part, rfl⟩

/-- A node of a resolved tree is a node of an answer, a node of a reference of the tree, or a node
of the tree over resolved sources. -/
lemma ResolvesTo.within (h : e.ResolvesTo summarize answers r) (within : n.Within r) :
    (∃ a ∈ answers, n.Within a) ∨
    (∃ m : Expr, m.Within e ∧ m.isRef = true ∧ n.Within m) ∨
    ∃ (m : Expr) (sources : List Expr), m.Within e ∧ m.Accepts sources ∧
      n = m.rebound summarize sources := by
  induction e using Expr.induction generalizing answers r with
  | node e ih =>
    cases field : e.isField with
    | true =>
      cases e with
      | field =>
        obtain rfl := resolvesTo_field.1 h
        exact .inl ⟨r, List.mem_singleton_self r, within⟩
      | _ => contradiction
    | false =>
    cases ref : e.isRef with
    | true =>
      cases e with
      | ref =>
        obtain ⟨-, rfl⟩ := resolvesTo_ref.1 h
        exact .inr (.inl ⟨_, .root, rfl, within⟩)
      | _ => contradiction
    | false =>
    -- every other node of the result is the rebuilt root or stands below a resolved source
    obtain ⟨resolved, parts, rfl, rfl, accepts⟩ := h.accepts field ref
    cases within with
    | root => exact .inr (.inr ⟨e, _, .root, accepts, rfl⟩)
    | @source _ s mem within =>
      rw [sources_rebound summarize accepts.length] at mem
      obtain ⟨a, memA, rfl⟩ := List.mem_map.1 mem
      obtain ⟨s, memS, part⟩ := exists_of_forall₂ parts memA
      rcases ih s memS part within with
        ⟨x, memX, within⟩ | ⟨m, inside, isRef, within⟩ | ⟨m, sources, inside, made⟩
      · exact .inl ⟨x, List.mem_flatMap.2 ⟨_, memA, memX⟩, within⟩
      · exact .inr (.inl ⟨m, .source memS inside, isRef, within⟩)
      · exact .inr (.inr ⟨m, sources, .source memS inside, made⟩)

/-- What holds throughout the answers and the references of a tree, and of its other nodes over the
sources that they accept, holds throughout the resolved tree. -/
lemma ResolvesTo.throughout {p : Expr → Prop} (h : e.ResolvesTo summarize answers r)
    (answer : ∀ a ∈ answers, a.Throughout p)
    (ref : ∀ m : Expr, m.Within e → m.isRef = true → m.Throughout p)
    (node : ∀ (m : Expr) (sources : List Expr), m.Within e → m.Accepts sources →
      p (m.rebound summarize sources)) :
    r.Throughout p := by
  intro n within
  rcases h.within within with
    ⟨a, mem, within⟩ | ⟨m, inside, isRef, within⟩ | ⟨m, sources, inside, accepts, rfl⟩
  · exact answer a mem n within
  · exact ref m inside isRef n within
  · exact node m sources inside accepts

/-- Putting resolved sources into a node neither makes nor removes a field. -/
lemma isField_rebound (e : Expr) (summarize : Bool) (sources : List Expr) :
    (e.rebound summarize sources).isField = e.isField := by
  unfold rebound
  split
  · rfl
  · unfold replaceSources
    split <;> rfl

/-- Putting resolved sources into a node neither makes nor removes a column. -/
lemma isColumn_rebound (e : Expr) (summarize : Bool) (sources : List Expr) :
    (e.rebound summarize sources).isColumn = e.isColumn := by
  unfold rebound
  split
  · rfl
  · unfold replaceSources
    split <;> rfl

end BoundSql.Expr
