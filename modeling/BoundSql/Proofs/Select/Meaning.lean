import BoundSql.Proofs.Expr.Truth
import BoundSql.Proofs.Select.Steps

/-!
# What filters mean

A row is kept when all predicates of WHERE and HAVING are true of it. Filters and exclusions take
predicates apart, negate them and distribute them over the two clauses; all the same the clauses
together are as true as what was in them before, every predicate that was filtered by, and the
opposite of every one that was excluded (`truth_restricts`). Each conjunct is in one of the clauses,
and only once (`Restricts.perm`).
-/

namespace BoundSql.Select

/-- All predicates that the query puts on its rows and groups. -/
def predicates (s : Select) : List Expr :=
  s.conditions ++ s.groupConditions

/-- The truth of the predicates together, given that of those that are not compound. -/
def truth (v : Expr → Truth) (s : Select) : Truth :=
  Truth.all (s.predicates.map (Expr.truth v))

/-- Filters and exclusions have succeeded one after another. The first list is what the predicates
of the filters were resolved to, and the second what those of the exclusions were. -/
inductive Restricts (s : Select) : List Expr → List Expr → Select → Prop where
  | refl : Restricts s [] [] s
  | filter {kept dropped t p r t' clauses u} : Restricts s kept dropped t →
      (resolve {} p).on t = (.ok r, t') → (Select.filter p).on t = (.ok clauses, u) →
      Restricts s (kept ++ [r]) dropped u
  | exclude {kept dropped t p r t' clause u} : Restricts s kept dropped t →
      (resolve {} p).on t = (.ok r, t') → (Select.exclude p).on t = (.ok clause, u) →
      Restricts s kept (dropped ++ [r]) u

variable {s t : Select} {kept dropped : List Expr}

/-- Predicates that go to their clauses are there beside the old ones. -/
lemma perm_withPredicates (s : Select) (ps : List Expr) :
    (s.withPredicates ps).predicates.Perm (s.predicates ++ ps) := by
  have clauses : (fun p => decide (s.clauseOf p = .afterGrouping)) =
      fun p => !decide (s.clauseOf p = .beforeGrouping) := by
    funext p
    cases s.clauseOf p <;> rfl
  have apart := List.filter_append_perm (fun p => decide (s.clauseOf p = .beforeGrouping)) ps
  rw [← clauses] at apart
  unfold predicates withPredicates
  -- the new conditions move behind the old group conditions
  refine List.Perm.trans ?_ (apart.append_left _)
  rw [List.append_assoc, List.append_assoc]
  apply List.Perm.append_left
  rw [← List.append_assoc, ← List.append_assoc]
  exact List.perm_append_comm.append_right _

/-- More joins leave the predicates as they are. -/
lemma predicates_of_grown (grown : Grown s t) : t.predicates = s.predicates := by
  obtain ⟨added, rfl⟩ := grown
  rfl

/-- The clauses hold what they held, the conjuncts of what was filtered by, and the negation of what
was excluded, and nothing else. -/
lemma Restricts.perm (h : Restricts s kept dropped t) : t.predicates.Perm
    (s.predicates ++ (kept.flatMap Expr.conjuncts ++ dropped.map Expr.negate)) := by
  induction h with
  | refl =>
    rw [List.flatMap_nil, List.map_nil, List.append_nil, List.append_nil]
  | @filter kept dropped t p r t' clauses u _ resolved run ih =>
    rw [on_filter, resolved] at run
    cases run
    refine (perm_withPredicates t' _).trans ?_
    rw [predicates_of_grown (resolve_grown resolved), List.flatMap_append, List.flatMap_singleton]
    refine (ih.append_right _).trans ?_
    rw [List.append_assoc, List.append_assoc, List.append_assoc]
    exact (List.perm_append_comm.append_left _).append_left _
  | @exclude kept dropped t p r t' clause u _ resolved run ih =>
    rw [on_exclude, resolved] at run
    cases run
    refine (perm_withPredicates t' _).trans ?_
    rw [predicates_of_grown (resolve_grown resolved), List.map_append, ← List.append_assoc,
      ← List.append_assoc]
    rw [← List.append_assoc] at ih
    exact ih.append_right _

/-- After filters and exclusions that succeed, the clauses hold each conjunct once, and together they
are as true as before, as every predicate that was filtered by, and as the negation of every one that
was excluded, whatever the truth of the predicates that are not compound. -/
theorem truth_restricts (h : Restricts s kept dropped t) :
    t.predicates.Perm
      (s.predicates ++ (kept.flatMap Expr.conjuncts ++ dropped.map Expr.negate)) ∧
    ∀ v : Expr → Truth, t.truth v =
      (s.truth v).and ((Truth.all (kept.map fun r => r.truth v)).and
        (Truth.all (dropped.map fun r => (r.truth v).not))) := by
  refine ⟨h.perm, fun v => ?_⟩
  have filtered : Truth.all ((kept.flatMap Expr.conjuncts).map (Expr.truth v)) =
      Truth.all (kept.map fun r => r.truth v) := by
    rw [List.map_flatMap, Truth.all_flatMap]
    simp only [Expr.all_conjuncts]
  have excluded : (dropped.map Expr.negate).map (Expr.truth v) =
      dropped.map fun r => (r.truth v).not := by
    rw [List.map_map]
    exact List.map_congr_left fun r _ => Expr.truth_negate v r
  rw [truth, Truth.all_perm (h.perm.map _), List.map_append, List.map_append, Truth.all_append,
    Truth.all_append, filtered, excluded]
  rfl

/-- Pay above a limit and, as a part of its own, a sum of pay that is not below the limit. -/
def payWithin (pay : Expr) : Expr :=
  let limit := Expr.literal (.integer 10) none
  .logic .and [.compare pay .gt limit,
    .logic .and [.logic .or [.compare (.aggregateOf .sum pay) .lt limit] true] false] false

/-- A filter by a conjunction within another, and the exclusion of a negated predicate. -/
theorem truth_restricts_payWithin :
    let pay := Expr.column "T2" "pay" (some .integer)
    ∃ t, Restricts allStaff [payWithin pay] [.logic .or [pay] true] t ∧
      t.conditions.length = 2 ∧ t.groupConditions.length = 1 ∧
      ∀ v, t.truth v = Truth.yes.and
        ((((payWithin pay).truth v).and .yes).and (((v pay).or .no).not.not.and .yes)) := by
  have restricts := Restricts.exclude (p := .logic .or [.field "pay"] true)
    (.filter (s := allStaff) (p := payWithin (.field "pay")) .refl rfl rfl) rfl rfl
  exact ⟨_, restricts, rfl, rfl, (truth_restricts restricts).2⟩

end BoundSql.Select
