import BoundSql.Proofs.Select.Failure
import BoundSql.Proofs.Select.Stability

/-!
# What operations touch

An operation touches the joins of a query, which only become more, and its own list. An operation that
succeeds stores what its trees resolved to, in the list that `Operation.store` names; one that fails
stores nothing, but for the sort keys before the one that failed. Where no relation may be crossed, even
the joins are as before (`operation_touches`).
-/

namespace BoundSql.Select

/-- The query with the results of an operation in the list of the operation. All but the select list are
added to. -/
def Operation.store : Operation → List Expr → Select → Select
  | .annotate name _, rs, s => { s with computed := s.computed ++ rs.map fun r => (name, r) }
  | .filter _, rs, s => s.withPredicates (rs.flatMap Expr.conjuncts)
  | .exclude _, rs, s => s.withPredicates (rs.map Expr.negate)
  | .setColumns _, rs, s => { s with columns := rs }
  | .orderBy _, rs, s => { s with order := s.order ++ rs.map sortKey }
  | .summarize name _, rs, s => { s with summary := s.summary ++ rs.map fun r => (name, r) }
  | .resolve .., _, s => s

open Select.Action

variable {mode : Resolution} {operation : Operation} {s t : Select} {es rs : List Expr}

/-- Sort keys that all resolve are added, one for each expression. -/
lemma orderBy_ok (run : (orderBy es).on s = (.ok (), t)) :
    ∃ (rs : List Expr) (u : Select), rs.length = es.length ∧ Grown s u ∧
      t = { u with order := u.order ++ rs.map sortKey } := by
  induction es generalizing s with
  | nil =>
    cases run
    exact ⟨[], t, rfl, .refl t, by simp⟩
  | cons e es ih =>
    rw [on_orderBy_cons] at run
    rcases on_cases (resolve {} e) s with ⟨r, u, resolved⟩ | ⟨x, u, resolved⟩
    · rw [resolved] at run
      obtain ⟨added, rfl⟩ := resolve_grown resolved
      obtain ⟨rs, _, length, ⟨more, rfl⟩, rfl⟩ := ih run
      exact ⟨r :: rs, { s with joins := s.joins ++ added ++ more }, congrArg (· + 1) length,
        ⟨added ++ more, by simp⟩, by simp⟩
    · rw [resolved] at run
      cases run

/-- What an operation with a single tree leaves when the tree resolves. -/
lemma exists_store_of_resolve {e r : Expr} {u : Select} (tree : operation.trees = [e])
    (run : (resolve mode e).on s = (.ok r, u)) (stored : t = operation.store [r] u) :
    ∃ (rs : List Expr) (u : Select), rs.length = operation.trees.length ∧ Grown s u ∧
      t = operation.store rs u :=
  ⟨[r], u, by rw [tree]; rfl, resolve_grown run, stored⟩

/-- An operation that succeeds stores one result for each of its trees. -/
lemma Operation.succeeded (run : operation.action.on s = (.ok (), t)) :
    ∃ (rs : List Expr) (u : Select), rs.length = operation.trees.length ∧ Grown s u ∧
      t = operation.store rs u := by
  cases operation with
  | annotate name e =>
    rw [action, on_annotate] at run
    split_ifs at run
    · cases run
    · cases run
    · split at run
      · cases run
        exact exists_store_of_resolve rfl ‹_› rfl
      · cases run
  | filter p =>
    obtain ⟨clauses, run⟩ := ok_of_discard run
    rw [on_filter] at run
    split at run
    · cases run
      exact exists_store_of_resolve rfl ‹_› (by simp [store])
    · cases run
  | exclude p =>
    obtain ⟨clause, run⟩ := ok_of_discard run
    rw [on_exclude] at run
    split at run
    · cases run
      exact exists_store_of_resolve rfl ‹_› rfl
    · cases run
  | setColumns es =>
    have grown := (joinsFor_mapM es s).grown
    rw [action, on_setColumns] at run
    split at run <;> rename_i resolved
    · cases run
      rw [resolved] at grown
      exact ⟨_, _, length_of_on_mapM resolved, grown, rfl⟩
    · cases run
  | orderBy es => exact orderBy_ok run
  | summarize name e =>
    rw [action, on_summarize] at run
    split at run
    · cases run
      exact exists_store_of_resolve rfl ‹_› rfl
    · cases run
  | resolve mode e =>
    obtain ⟨r, run⟩ := ok_of_discard run
    exact exists_store_of_resolve rfl run rfl

/-- Storing leaves the joins alone. -/
lemma Operation.joins_store (operation : Operation) (rs : List Expr) (s : Select) :
    (operation.store rs s).joins = s.joins := by
  cases operation <;> rfl

/-- An operation adds joins behind those that are there. Resolving a tree where no relation may be
crossed leaves the query as it is. An operation that fails leaves the rest of the query as it was, but
for `orderBy`, which may have added sort keys. One that succeeds has stored a result for each of its
trees in its own list, and the rest of the query is as it was as well. -/
theorem operation_touches (operation : Operation) (s : Select) :
    let t := (operation.action.on s).2
    s.joins <+: t.joins ∧
    (∀ mode e, operation = .resolve mode e → mode.allowJoins = false → t = s) ∧
    (∀ x, (operation.action.on s).1 = .error x →
      ∃ keys, t = { s with joins := t.joins, order := s.order ++ keys } ∧
        ((∀ es, operation ≠ .orderBy es) → keys = [])) ∧
    ((operation.action.on s).1 = .ok () →
      ∃ rs, rs.length = operation.trees.length ∧
        t = operation.store rs { s with joins := t.joins }) := by
  intro t
  refine ⟨(operation.extends s).joins, ?_, fun x failed => ?_, fun ok => ?_⟩
  · rintro mode e rfl forbidden
    have still (path : String) {q : Select} (same : q = s) :
        ((resolveField mode path).on q).2 = s := by
      rw [resolveField_of_forbidden forbidden, same]
    exact (on_discard_snd _ s).trans (resolve_keeps still rfl e)
  · obtain ⟨keys, joins, others⟩ := operation.failed (Prod.ext failed rfl : _ = (_, t))
    obtain ⟨added, eq⟩ := joins.grown
    have joined : t.joins = s.joins ++ added := congrArg Select.joins eq
    refine ⟨keys, ?_, others⟩
    rw [joined]
    exact eq
  · obtain ⟨rs, u, length, ⟨added, rfl⟩, eq⟩ := operation.succeeded (Prod.ext ok rfl : _ = (_, t))
    have joined : t.joins = s.joins ++ added := by
      rw [eq, operation.joins_store]
    refine ⟨rs, length, ?_⟩
    rw [joined]
    exact eq

/-- Excludes those whose superiors' superiors earn less than theirs. -/
def underpaid : Operation :=
  .exclude (.compare (.field "boss.boss.pay") .lt (.field "boss.boss.boss.boss.pay"))

/-- Of the four relations two are joined already. A filter that fails leaves no predicate. -/
theorem operation_touches_underpaid :
    let s := allStaff.after rejoined
    let t := (underpaid.action.on s).2
    (s.joins.length = 2 ∧ t.joins.length = 4 ∧ s.joins <+: t.joins ∧
      ∃ p, t = Select.withPredicates { s with joins := t.joins } [p]) ∧
    (byNothing.action.on allStaff).2 =
      { allStaff with joins := (byNothing.action.on allStaff).2.joins } := by
  have ran : (underpaid.action.on (allStaff.after rejoined)).1 = .ok () := by decide
  obtain ⟨x, failed⟩ : ∃ x, (byNothing.action.on allStaff).1 = .error x := ⟨_, rfl⟩
  obtain ⟨joins, -, -, stores⟩ := operation_touches underpaid (allStaff.after rejoined)
  obtain ⟨rs, length, eq⟩ := stores ran
  obtain ⟨r, rfl⟩ := List.length_eq_one_iff.1 length
  refine ⟨⟨by decide, by decide, joins, r.negate, eq⟩, ?_⟩
  obtain ⟨-, -, fails, -⟩ := operation_touches byNothing allStaff
  obtain ⟨keys, eq, others⟩ := fails x failed
  obtain rfl := others nofun
  rw [List.append_nil] at eq
  exact eq

end BoundSql.Select
