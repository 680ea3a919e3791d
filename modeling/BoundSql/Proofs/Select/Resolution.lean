import BoundSql.Proofs.Expr.Resolved
import BoundSql.Proofs.Select.Walk

/-!
# Resolving trees

Resolving a tree is resolving its field paths one after another, from left to right. When it
succeeds, the query is as after all of them, and the tree resolves to the result by their answers;
when it fails, the query is as after the first few (`follows_resolve`). `Follows` says this of an
action, so that the theorem goes by induction on the tree.
-/

namespace BoundSql.Select

open Select.Action

variable {α β : Type} {mode : Resolution} {s t : Select}

/-- Resolves field paths one after another. -/
def resolveFields (mode : Resolution) (paths : List String) : Action (List Expr) :=
  paths.mapM (resolveField mode)

/-- Paths are resolved in order, the later ones where the earlier ones have left the query. -/
lemma resolveFields_append (paths more : List String) :
    resolveFields mode (paths ++ more) =
      do return (← resolveFields mode paths) ++ (← resolveFields mode more) :=
  List.mapM_append

/-- Resolving more paths goes on where the first ones ended. -/
lemma on_resolveFields_append {paths more : List String} {answers : List Expr}
    (h : (resolveFields mode paths).on s = (.ok answers, t)) :
    ((resolveFields mode (paths ++ more)).on s).2 = ((resolveFields mode more).on t).2 := by
  rw [resolveFields_append, on_bind_ok h, on_bind]
  split <;> simp [*]

/-- The action resolves the paths in order, all of them when it succeeds and the first few when it
fails, and does nothing else. The answers stand in the given relation to its result. -/
structure Follows (mode : Resolution) (paths : List String) (x : Action α)
    (result : List Expr → α → Prop) : Prop where
  /-- A success. -/
  ok : ∀ {s t a}, x.on s = (.ok a, t) →
    ∃ answers, (resolveFields mode paths).on s = (.ok answers, t) ∧ result answers a
  /-- A failure. -/
  error : ∀ {s t e}, x.on s = (.error e, t) →
    ∃ done, done <+: paths ∧ ((resolveFields mode done).on s).2 = t

/-- A result that takes no path. -/
lemma follows_pure {result : List Expr → α → Prop} {a : α} (h : result [] a) :
    Follows mode [] (pure a) result where
  ok run := by
    cases run
    exact ⟨[], on_mapM_nil _ _, h⟩
  error run := by cases run

/-- A failure before the first path. -/
lemma follows_of_error {result : List Expr → α → Prop} {paths : List String} {x : Action α}
    {e : Error} (h : ∀ s, x.on s = (.error e, s)) : Follows mode paths x result where
  ok run := by
    rw [h] at run
    cases run
  error run := by
    rw [h] at run
    cases run
    exact ⟨[], List.nil_prefix, by rw [resolveFields, on_mapM_nil]⟩

/-- What holds of the answers and the result may be said more weakly. -/
lemma Follows.mono {paths : List String} {x : Action α} {result result' : List Expr → α → Prop}
    (h : Follows mode paths x result) (weaker : ∀ {answers a}, result answers a → result' answers a) :
    Follows mode paths x result' where
  ok run := by
    obtain ⟨answers, fields, holds⟩ := h.ok run
    exact ⟨answers, fields, weaker holds⟩
  error run := h.error run

/-- What leaves the query as it is may come after the paths. -/
lemma Follows.bind {paths : List String} {x : Action α} {f : α → Action β}
    {result : List Expr → α → Prop} {result' : List Expr → β → Prop}
    (h : Follows mode paths x result) (still : ∀ a s, ((f a).on s).2 = s)
    (ok : ∀ {answers a b s}, result answers a → ((f a).on s).1 = .ok b → result' answers b) :
    Follows mode paths (x >>= f) result' where
  ok run := by
    obtain ⟨a, u, first, second⟩ := bind_ok run
    obtain ⟨answers, fields, holds⟩ := h.ok first
    obtain rfl : _ = u := by simpa [second] using still a u
    exact ⟨answers, fields, ok holds (by rw [second])⟩
  error run := by
    rcases bind_error run with first | ⟨a, u, first, second⟩
    · exact h.error first
    · obtain ⟨answers, fields, -⟩ := h.ok first
      obtain rfl : _ = u := by simpa [second] using still a u
      exact ⟨paths, List.prefix_rfl, by rw [fields]⟩

/-- A field path is resolved to its answer. -/
lemma follows_resolveField (path : String) :
    Follows mode [path] (resolveField mode path) fun answers r => answers = [r] where
  ok run := by
    refine ⟨_, ?_, rfl⟩
    rw [resolveFields, on_mapM_cons, run]
    rfl
  error run := by
    refine ⟨[path], List.prefix_rfl, ?_⟩
    rw [resolveFields, on_mapM_cons, run]

/-- Trees that follow their paths one by one do so in a row. -/
lemma follows_mapM {f : Expr → Action Expr} {result : Expr → List Expr → Expr → Prop}
    {es : List Expr} (h : ∀ e ∈ es, Follows mode e.fieldPaths (f e) (result e)) :
    Follows mode (es.flatMap Expr.fieldPaths) (es.mapM f) fun answers rs =>
      ∃ resolved : List (List Expr × Expr),
        List.Forall₂ (fun e a => result e a.1 a.2) es resolved ∧
        answers = resolved.flatMap (·.1) ∧ rs = resolved.map (·.2) := by
  induction es with
  | nil =>
    rw [List.mapM_nil]
    exact follows_pure ⟨[], .nil, rfl, rfl⟩
  | cons e es ih =>
    have head := h e List.mem_cons_self
    have tail := ih fun e' mem => h e' (List.mem_cons_of_mem _ mem)
    rw [List.mapM_cons, List.flatMap_cons]
    constructor
    · intro s u rs run
      obtain ⟨r, t, first, run⟩ := bind_ok run
      obtain ⟨rs, t', second, run⟩ := bind_ok run
      cases run
      obtain ⟨answers, fields, holds⟩ := head.ok first
      obtain ⟨_, more, resolved, holds', rfl, rfl⟩ := tail.ok second
      refine ⟨answers ++ resolved.flatMap (·.1), ?_, (answers, r) :: resolved, .cons holds holds',
        rfl, rfl⟩
      rw [resolveFields_append, on_bind_ok fields, on_bind_ok more, on_pure]
    · intro s u x run
      rcases bind_error run with first | ⟨r, t, first, run⟩
      · obtain ⟨done, start, state⟩ := head.error first
        exact ⟨done, start.trans (List.prefix_append _ _), state⟩
      · obtain ⟨answers, fields, -⟩ := head.ok first
        rcases bind_error run with second | ⟨rs, t', second, run⟩
        · -- a failure in the rest comes after all paths of the head
          obtain ⟨done, start, state⟩ := tail.error second
          refine ⟨e.fieldPaths ++ done, (List.prefix_append_right_inj _).2 start, ?_⟩
          rw [on_resolveFields_append fields, state]
        · cases run

/-- The actions for the sources of a node follow the paths of the sources. -/
lemma follows_sources {f : Expr → Action Expr} {e : Expr}
    (h : ∀ s ∈ e.sources, Follows mode s.fieldPaths (f s) (s.ResolvesTo mode.summarize)) :
    Follows mode (e.sources.flatMap Expr.fieldPaths) ((e.sources.map f).mapM id) fun answers rs =>
      ∃ resolved : List (List Expr × Expr),
        List.Forall₂ (fun s a => s.ResolvesTo mode.summarize a.1 a.2) e.sources resolved ∧
        answers = resolved.flatMap (·.1) ∧ rs = resolved.map (·.2) := by
  rw [List.mapM_map]
  exact follows_mapM h

/-- A node follows the paths of its sources. -/
lemma follows_resolveNode {f : Expr → Action Expr} {e : Expr}
    (h : ∀ s ∈ e.sources, Follows mode s.fieldPaths (f s) (s.ResolvesTo mode.summarize)) :
    Follows mode e.fieldPaths (resolveNode mode e (e.sources.map f))
      (e.ResolvesTo mode.summarize) := by
  unfold resolveNode
  rw [Expr.fieldPaths_eq]
  cases arity : e.checkArity with
  | error x => exact follows_of_error fun s => by rw [on_bind, on_ofExcept]
  | ok _ =>
    have start {x : Action Expr} : (do ofExcept (.ok ()); x : Action Expr) = x := rfl
    rw [start]
    have sources := follows_sources h
    have length : (e.sources.map f).length = e.sources.length := List.length_map _
    -- all nodes but fields, references and aggregates are only rebuilt
    have rebuilt (field : e.isField = false) (ref : e.isRef = false)
        (aggregate : e.isAggregate = false) :
        Follows mode (e.sources.flatMap Expr.fieldPaths) (e.rebuild (e.sources.map f))
          (e.ResolvesTo mode.summarize) := by
      rw [Expr.rebuild_eq e length]
      refine sources.bind (fun _ _ => rfl) ?_
      rintro answers rs r s ⟨resolved, parts, rfl, rfl⟩ run
      cases run
      refine (Expr.resolvesTo_node field ref).2 ⟨arity, resolved, parts, rfl, ?_, ?_⟩
      · cases e <;> first | rfl | contradiction
      · intro isAggregate
        rw [aggregate] at isAggregate
        contradiction
    cases e with
    | field path => exact (follows_resolveField path).mono Expr.resolvesTo_field.2
    | ref name source => exact follows_pure (Expr.resolvesTo_ref.2 ⟨rfl, rfl⟩)
    | aggregate kind head args distinct summary =>
      refine sources.bind (fun rs s => ?_) ?_
      · cases nested : rs.any (·.containsAggregate) <;> rfl
      · rintro answers rs r s ⟨resolved, parts, rfl, rfl⟩ run
        dsimp only at run
        cases nested : (resolved.map (·.2)).any (·.containsAggregate) with
        | true =>
          rw [nested] at run
          cases run
        | false =>
          rw [nested] at run
          cases run
          refine (Expr.resolvesTo_node rfl rfl).2 ⟨arity, resolved, parts, rfl, rfl, fun _ a mem => ?_⟩
          have plain := List.any_eq_false.1 nested a.2 (List.mem_map_of_mem mem)
          simpa using plain
    | _ => exact rebuilt rfl rfl rfl

/-- A tree follows its paths. -/
lemma follows_resolveTree (mode : Resolution) (e : Expr) :
    Follows mode e.fieldPaths (e.fold (resolveNode mode)) (e.ResolvesTo mode.summarize) := by
  induction e using Expr.induction with
  | node e ih =>
    rw [Expr.fold_eq]
    exact follows_resolveNode ih

/-- Resolving a tree follows its paths. What summarizes all rows aggregates then. -/
theorem follows_resolve (mode : Resolution) (e : Expr) :
    Follows mode e.fieldPaths (resolve mode e) fun answers r =>
      e.ResolvesTo mode.summarize answers r ∧
      (mode.summarize = true → r.containsAggregate = true) := by
  rw [resolve]
  refine (follows_resolveTree mode e).bind (fun r s => ?_) ?_
  · cases plain : mode.summarize && !r.containsAggregate <;> rfl
  · intro answers r r' s holds run
    cases plain : mode.summarize && !r.containsAggregate with
    | true =>
      rw [plain] at run
      cases run
    | false =>
      rw [plain] at run
      cases run
      refine ⟨holds, fun summarize => ?_⟩
      simpa [summarize] using plain

/-- Resolving a path adds joins, and nothing else. -/
lemma resolveField_grown {path : String} {x : Except Error Expr}
    (run : (resolveField mode path).on s = (x, t)) : Grown s t := by
  rcases resolveField_cases mode path s with
    ⟨_, _, h, -⟩ | ⟨_, _, _, h, -, walk, -⟩ | ⟨_, _, _, _, h, -, walk⟩
  · cases h.symm.trans run
    exact .refl s
  · cases h.symm.trans run
    exact walk.grown
  · cases h.symm.trans run
    exact walk.grown

/-- Resolving paths adds joins, and nothing else. -/
lemma resolveFields_grown (mode : Resolution) (paths : List String) (s : Select) :
    Grown s ((resolveFields mode paths).on s).2 :=
  on_mapM_related .refl .trans (fun _ _ _ => resolveField_grown rfl) s

/-- An action that follows paths leaves the query as resolving the first few of them does. -/
lemma Follows.state {paths : List String} {x : Action α} {result : List Expr → α → Prop}
    (h : Follows mode paths x result) (s : Select) :
    ∃ done, done <+: paths ∧ ((resolveFields mode done).on s).2 = (x.on s).2 := by
  rcases on_cases x s with ⟨a, t, run⟩ | ⟨e, t, run⟩
  · obtain ⟨answers, fields, -⟩ := h.ok run
    exact ⟨paths, List.prefix_rfl, by rw [fields, run]⟩
  · obtain ⟨done, start, state⟩ := h.error run
    exact ⟨done, start, by rw [state, run]⟩

/-- Resolving a tree gives the query no more than joins. -/
theorem resolve_grown {e : Expr} {x : Except Error Expr} (run : (resolve mode e).on s = (x, t)) :
    Grown s t := by
  obtain ⟨done, -, state⟩ := (follows_resolve mode e).state s
  have grown := resolveFields_grown mode done s
  rwa [state, run] at grown

end BoundSql.Select
