import BoundSql.Proofs.Select.Binding

/-!
# Resolving twice

What a tree resolves to has no field paths left outside of its references, and every check that
resolution makes holds of it: the nodes there are settled, and their aggregates are over all rows or not
as they were asked to be. A tree like that resolves to itself in every query, by induction on the tree
(`on_resolveTree_settled`), so that resolving a result again changes nothing (`resolution_idempotent`).
-/

namespace BoundSql.Select

open Select.Action

variable {α : Type} {s t : Select} {mode : Resolution} {e r : Expr}

/-- Actions that each give what they are made from and leave the query alone do so in a row. -/
lemma on_mapM_still {f : α → Action α} {l : List α} (each : ∀ a ∈ l, (f a).on s = (.ok a, s)) :
    (l.mapM f).on s = (.ok l, s) := by
  induction l with
  | nil => exact on_mapM_nil f s
  | cons a rest ih =>
    obtain ⟨first, later⟩ := List.forall_mem_cons.1 each
    rw [List.mapM_cons, on_bind_ok first, on_bind_ok (ih later), on_pure]

/-- A settled node resolves to itself when its sources do. Those of a reference are not looked at. -/
lemma on_resolveNode_settled {f : Expr → Action Expr} (settled : e.Settled)
    (summarizes : e.SummarizesAs mode.summarize)
    (sources : e.isRef = false → ∀ x ∈ e.sources, (f x).on s = (.ok x, s)) :
    (resolveNode mode e (e.sources.map f)).on s = (.ok e, s) := by
  have length : (e.sources.map f).length = e.sources.length := List.length_map _
  have row (plain : e.isRef = false) : ((e.sources.map f).mapM id).on s = (.ok e.sources, s) := by
    rw [List.mapM_map]
    exact on_mapM_still (sources plain)
  have rebuilt (plain : e.isRef = false) :
      (e.rebuild (e.sources.map f)).on s = (.ok e, s) := by
    rw [Expr.rebuild_eq e length, on_bind_ok (row plain), on_pure, Expr.replaceSources_sources]
  unfold resolveNode
  rw [settled.arity, on_bind_ok (on_ofExcept _ s)]
  cases e with
  | field => cases settled.field
  | column | ref | literal | star => rfl
  | aggregate kind head args distinct summary =>
    -- no source aggregates, and the flag is the one that is set
    have flat : args.any (·.containsAggregate) = false :=
      List.any_eq_false.2 fun x mem => by simp [settled.flat rfl x mem]
    obtain rfl := summarizes _ _ _ _ _ rfl
    refine (on_bind_ok (row rfl)).trans ?_
    simp only [Expr.sources, flat, Bool.false_eq_true, if_false, on_pure]
  | _ => exact rebuilt rfl

/-- A tree resolves to itself when it is settled outside of its references. -/
lemma on_resolveTree_settled (s : Select)
    (settled : ∀ n : Expr, n.OutsideRefs e → n.Settled ∧ n.SummarizesAs mode.summarize) :
    (e.fold (resolveNode mode)).on s = (.ok e, s) := by
  induction e using Expr.induction with
  | node e ih =>
    obtain ⟨root, summarizes⟩ := settled e .root
    rw [Expr.fold_eq]
    refine on_resolveNode_settled root summarizes fun plain x mem => ih x mem ?_
    exact fun n outside => settled n (.source plain mem outside)

/-- What a tree was resolved to is resolved to itself, as long as it is asked to summarize as before:
in the query that was left behind as in any other, whatever relations may be crossed and whatever joins
may be shared. The query stays as it is. -/
theorem resolution_idempotent (run : (resolve mode e).on s = (.ok r, t)) (again : Resolution)
    (same : again.summarize = mode.summarize) (u : Select) :
    (resolve again r).on u = (.ok r, u) := by
  have settled (n : Expr) (outside : n.OutsideRefs r) :
      n.Settled ∧ n.SummarizesAs again.summarize := by
    rw [same]
    exact settled_resolve run outside
  obtain ⟨answers, -, -, summary⟩ := (follows_resolve mode e).ok run
  rw [resolve, on_bind_ok (on_resolveTree_settled u settled), same]
  cases summarize : mode.summarize with
  | false => rfl
  | true =>
    rw [summary summarize]
    rfl

/-- Whether the highest pay of a superior is above the total. -/
def aboveTotal : Expr :=
  .compare (.aggregateOf .max (.field "boss.pay")) .gt (.field "total")

/-- The relation is crossed once, and not looked up again where that would be refused. The reference to
a sum stays one that is not over all rows. -/
theorem resolution_idempotent_aboveTotal :
    ∃ r t, (resolve { summarize := true } aboveTotal).on (allStaff.after sumsOfPay) = (.ok r, t) ∧
      t.joins.length = 1 ∧
      (resolve { allowJoins := false, reuse := some [], summarize := true } r).on t = (.ok r, t) := by
  obtain ⟨r, t, run, joins⟩ : ∃ r t,
      (resolve { summarize := true } aboveTotal).on (allStaff.after sumsOfPay) = (.ok r, t) ∧
      t.joins.length = 1 := ⟨_, _, rfl, rfl⟩
  refine ⟨r, t, run, joins, ?_⟩
  exact resolution_idempotent run { allowJoins := false, reuse := some [], summarize := true } rfl t

end BoundSql.Select
