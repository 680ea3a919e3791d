import BoundSql.Proofs.Select.Resolution
import BoundSql.Select.Operations

/-!
# Operations

What each operation does to a query, by the runs of `resolve` that it starts with. Where the result
goes is said by one equation for each of them; `withPredicates` is the query that `filter` and
`exclude` leave behind.
-/

namespace BoundSql.Select

open Select.Action

/-- The clause of a predicate, by the aggregates that the query computes. -/
def clauseOf (s : Select) (p : Expr) : Clause :=
  Clause.ofPredicate s.existingAggregates p

/-- The query with predicates in the clauses they belong into. -/
def withPredicates (s : Select) (ps : List Expr) : Select :=
  { s with
    conditions := s.conditions ++ ps.filter (s.clauseOf · = .beforeGrouping)
    groupConditions := s.groupConditions ++ ps.filter (s.clauseOf · = .afterGrouping) }

/-- A computed column is refused for its name, or resolved and added. -/
lemma on_annotate (name : String) (e : Expr) (s : Select) :
    (annotate name e).on s =
      if (s.table.column? name).isSome then (.error (.nameOfField name), s)
      else if s.computed.any (·.1 == name) then (.error (.nameTaken name), s)
      else match (resolve {} e).on s with
        | (.ok r, t) => (.ok (), { t with computed := t.computed ++ [(name, r)] })
        | (.error x, t) => (.error x, t) := by
  rw [annotate]
  rw [on_bind_ok (on_get s)]
  cases (s.table.column? name).isSome with
  | true => rfl
  | false =>
    cases s.computed.any (·.1 == name) with
    | true => rfl
    | false =>
      simp only [Bool.false_eq_true, if_false]
      rcases on_cases (resolve {} e) s with ⟨r, t, h⟩ | ⟨x, t, h⟩
      · rw [on_bind_ok h, h, on_modify]
      · rw [on_bind_error h, h]

/-- A predicate goes to its clause. -/
lemma on_place (p : Expr) (s : Select) :
    (place p).on s = (.ok (s.clauseOf p), s.withPredicates [p]) := by
  rw [place]
  rw [on_bind_ok (on_get s)]
  have clause : Clause.ofPredicate s.existingAggregates p = s.clauseOf p := rfl
  dsimp only
  rw [clause]
  cases h : s.clauseOf p <;> simp [withPredicates, h] <;> rfl

/-- Predicates are placed one by one. -/
lemma withPredicates_cons (s : Select) (p : Expr) (ps : List Expr) :
    (s.withPredicates [p]).withPredicates ps = s.withPredicates (p :: ps) := by
  have same : (s.withPredicates [p]).clauseOf = s.clauseOf := rfl
  rw [withPredicates, same]
  simp only [withPredicates, List.append_assoc, ← List.filter_append]
  rfl

/-- Predicates go to their clauses in order. -/
lemma on_mapM_place (ps : List Expr) (s : Select) :
    (ps.mapM place).on s = (.ok (ps.map s.clauseOf), s.withPredicates ps) := by
  induction ps generalizing s with
  | nil => simp [withPredicates]
  | cons p ps ih =>
    rw [on_mapM_cons, on_place]
    dsimp only
    rw [ih, withPredicates_cons]
    rfl

/-- A predicate is resolved, and its conjuncts go to their clauses. -/
lemma on_filter (p : Expr) (s : Select) :
    (filter p).on s = match (resolve {} p).on s with
      | (.ok r, t) => (.ok (r.conjuncts.map t.clauseOf), t.withPredicates r.conjuncts)
      | (.error x, t) => (.error x, t) := by
  rw [filter]
  rcases on_cases (resolve {} p) s with ⟨r, t, h⟩ | ⟨x, t, h⟩
  · rw [on_bind_ok h, h, on_mapM_place]
  · rw [on_bind_error h, h]

/-- A predicate is resolved, and its negation goes to its clause. -/
lemma on_exclude (p : Expr) (s : Select) :
    (exclude p).on s = match (resolve {} p).on s with
      | (.ok r, t) => (.ok (t.clauseOf r.negate), t.withPredicates [r.negate])
      | (.error x, t) => (.error x, t) := by
  rw [exclude]
  rcases on_cases (resolve {} p) s with ⟨r, t, h⟩ | ⟨x, t, h⟩
  · rw [on_bind_ok h, h, on_place]
  · rw [on_bind_error h, h]

/-- The expressions are resolved, and replace the select list when all of them are. -/
lemma on_setColumns (es : List Expr) (s : Select) :
    (setColumns es).on s = match (es.mapM (resolve {})).on s with
      | (.ok rs, t) => (.ok (), { t with columns := rs })
      | (.error x, t) => (.error x, t) := by
  rw [setColumns]
  rcases on_cases (es.mapM (resolve {})) s with ⟨rs, t, h⟩ | ⟨x, t, h⟩
  · rw [on_bind_ok h, h, on_modify]
  · rw [on_bind_error h, h]

/-- The first sort key is resolved and added, and then the others. -/
lemma on_orderBy_cons (e : Expr) (es : List Expr) (s : Select) :
    (orderBy (e :: es)).on s = match (resolve {} e).on s with
      | (.ok r, t) => (orderBy es).on { t with order := t.order ++ [sortKey r] }
      | (.error x, t) => (.error x, t) := by
  rw [orderBy, List.forM, bind_assoc]
  change (resolve {} e >>= fun r => _ >>= fun _ => orderBy es).on s = _
  rcases on_cases (resolve {} e) s with ⟨r, t, h⟩ | ⟨x, t, h⟩
  · rw [on_bind_ok h, h, on_bind_ok (on_modify _ _)]
  · rw [on_bind_error h, h]

/-- A summary is resolved and added. -/
lemma on_summarize (name : String) (e : Expr) (s : Select) :
    (summarize name e).on s = match (resolve { summarize := true } e).on s with
      | (.ok r, t) => (.ok (), { t with summary := t.summary ++ [(name, r)] })
      | (.error x, t) => (.error x, t) := by
  rw [summarize]
  rcases on_cases (resolve { summarize := true } e) s with ⟨r, t, h⟩ | ⟨x, t, h⟩
  · rw [on_bind_ok h, h, on_modify]
  · rw [on_bind_error h, h]

end BoundSql.Select
