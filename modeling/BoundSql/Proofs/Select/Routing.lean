import BoundSql.Proofs.Expr.AggregateUse
import BoundSql.Proofs.Select.Steps

/-!
# Routing of predicates

A predicate goes to HAVING exactly when it aggregates (`Clause.ofPredicate_eq_after_iff`): the search
for uses of the aggregates of the query finds nothing that does not, whatever these are. So WHERE never
aggregates and HAVING always does, after any operations, and every conjunct of a filter is where the
answer of the filter says (`predicates_routed`).
-/

namespace BoundSql

/-- A predicate belongs after grouping exactly when it aggregates. -/
lemma Clause.ofPredicate_eq_after_iff {existing : Dict Expr} {p : Expr} :
    ofPredicate existing p = .afterGrouping ↔ p.containsAggregate = true := by
  rw [ofPredicate]
  split
  · rename_i h
    rcases Bool.or_eq_true_iff.1 h with h | h
    · exact iff_of_true rfl (Expr.containsAggregate_of_findAggregate? h)
    · exact iff_of_true rfl h
  · rename_i h
    simp only [Bool.or_eq_true, not_or] at h
    exact iff_of_false (by simp) h.2

/-- A predicate belongs before grouping exactly when it does not aggregate. -/
lemma Clause.ofPredicate_eq_before_iff {existing : Dict Expr} {p : Expr} :
    ofPredicate existing p = .beforeGrouping ↔ p.containsAggregate = false := by
  rw [← Bool.not_eq_true, ← @ofPredicate_eq_after_iff existing]
  cases ofPredicate existing p <;> simp

/-- The clause of a predicate is decided by whether an aggregate stands anywhere in it. A predicate in
which the search finds a use of the aggregates of the query contains one, so that the search makes no
difference: with other aggregates in the query the clause is the same. -/
theorem Clause.decided_by_aggregates (existing others : Dict Expr) (p : Expr) :
    (ofPredicate existing p = .afterGrouping ↔ p.containsAggregate = true) ∧
    (p.containsAggregate = true ↔ ∃ n : Expr, n.Within p ∧ n.isAggregate = true) ∧
    ((p.findAggregate? existing).isSome = true → p.containsAggregate = true) ∧
    ofPredicate existing p = ofPredicate others p := by
  refine ⟨ofPredicate_eq_after_iff, p.containsAggregate_iff, p.containsAggregate_of_findAggregate?, ?_⟩
  cases aggregates : p.containsAggregate with
  | true => rw [ofPredicate_eq_after_iff.2 aggregates, ofPredicate_eq_after_iff.2 aggregates]
  | false => rw [ofPredicate_eq_before_iff.2 aggregates, ofPredicate_eq_before_iff.2 aggregates]

/-- A limit on a column that the query knows as a sum is found by its name, and goes after grouping also
in a query that does not know it. -/
theorem Clause.decided_by_aggregates_namedSum :
    let sum := Expr.aggregateOf .sum (.column "T2" "pay" none)
    let p := Expr.compare (.ref "total" sum) .gt (.literal (.integer 10) none)
    let existing := (∅ : Dict Expr).insert "total" sum
    (p.findAggregate? existing).isSome = true ∧ p.containsAggregate = true ∧
      ofPredicate existing p = ofPredicate ∅ p := by
  intro sum p existing
  have found : (p.findAggregate? existing).isSome = true := by decide
  have decided := decided_by_aggregates existing ∅ p
  exact ⟨found, decided.2.2.1 found, decided.2.2.2⟩

namespace Select

variable {s t u : Select}

/-- No predicate in WHERE aggregates, and every predicate in HAVING does. -/
structure Separated (s : Select) : Prop where
  conditions : ∀ p ∈ s.conditions, p.Throughout (·.isAggregate = false)
  groupConditions : ∀ p ∈ s.groupConditions, ∃ n : Expr, n.Within p ∧ n.isAggregate = true

/-- Predicates that go to their clauses leave these separated. -/
lemma Separated.withPredicates (h : s.Separated) (ps : List Expr) :
    (s.withPredicates ps).Separated where
  conditions p mem := by
    rcases List.mem_append.1 mem with mem | mem
    · exact h.conditions p mem
    · have clause := (List.mem_filter.1 mem).2
      have plain := Clause.ofPredicate_eq_before_iff.1 (of_decide_eq_true clause)
      intro n within
      rw [← Bool.not_eq_true]
      intro isAggregate
      rw [(Expr.containsAggregate_iff p).2 ⟨n, within, isAggregate⟩] at plain
      contradiction
  groupConditions p mem := by
    rcases List.mem_append.1 mem with mem | mem
    · exact h.groupConditions p mem
    · have clause := (List.mem_filter.1 mem).2
      exact (Expr.containsAggregate_iff p).1
        (Clause.ofPredicate_eq_after_iff.1 (of_decide_eq_true clause))

/-- More joins move no predicate. -/
lemma Separated.grown (h : s.Separated) (grown : Grown s t) : t.Separated := by
  obtain ⟨added, rfl⟩ := grown
  exact ⟨h.conditions, h.groupConditions⟩

/-- Every step leaves the clauses separated. -/
lemma Step.separated {given : Expr → Prop} (step : Step given s t) (h : s.Separated) :
    t.Separated := by
  cases step with
  | resolve mode => exact h.grown (resolve_grown rfl)
  | store resolved stores =>
    have keeps := h.grown resolved.grown
    cases stores with
    | conjuncts | negation => exact keeps.withPredicates _
    | _ => exact ⟨keeps.conditions, keeps.groupConditions⟩

/-- The predicates whose clause is the given one, of predicates and their clauses. -/
def inClause (clause : Clause) (ps : List Expr) (clauses : List Clause) : List Expr :=
  ((ps.zip clauses).filter (·.2 = clause)).map (·.1)

/-- Predicates with the clause that a function gives for each. -/
lemma inClause_map (clause : Clause) (ps : List Expr) (f : Expr → Clause) :
    inClause clause ps (ps.map f) = ps.filter (f · = clause) := by
  induction ps with
  | nil => rfl
  | cons p ps ih =>
    have rest : ((ps.zip (ps.map f)).filter (·.2 = clause)).map (·.1) = _ := ih
    simp only [inClause, List.map_cons, List.zip_cons_cons, List.filter_cons]
    split <;> simp [rest]

/-- After any operations the clauses are separated. -/
lemma separated_after {c : Catalog} {name : String} (base : ofTable c name = .ok s)
    (operations : List Operation) : (s.after operations).Separated := by
  obtain ⟨table, rfl⟩ := eq_of_ofTable base
  have any : ∀ operation ∈ operations, ∀ e ∈ operation.trees, True := fun _ _ _ _ => trivial
  exact after_induction any (fun h step => step.separated h) ⟨by simp, by simp⟩

/-- After any operations, whether they succeed or fail, WHERE does not aggregate and HAVING does. A
filter succeeds exactly when its predicate resolves; then it names a clause for each conjunct, and the
conjuncts of each clause are added to it in order. A filter that fails adds to neither clause. -/
theorem predicates_routed {c : Catalog} {name : String} (base : ofTable c name = .ok s)
    (operations : List Operation) :
    (s.after operations).Separated ∧
    (∀ q p r t, (resolve {} p).on q = (.ok r, t) → ∃ clauses u,
      (filter p).on q = (.ok clauses, u) ∧
      clauses.length = r.conjuncts.length ∧
      u.conditions = q.conditions ++ inClause .beforeGrouping r.conjuncts clauses ∧
      u.groupConditions = q.groupConditions ++ inClause .afterGrouping r.conjuncts clauses) ∧
    ∀ q p e t, (resolve {} p).on q = (.error e, t) →
      (filter p).on q = (.error e, t) ∧
      t.conditions = q.conditions ∧ t.groupConditions = q.groupConditions := by
  refine ⟨separated_after base operations, ?_, ?_⟩
  · intro q p r t run
    obtain ⟨added, rfl⟩ := resolve_grown run
    refine ⟨_, _, by rw [on_filter, run], by rw [List.length_map], ?_, ?_⟩
    · rw [inClause_map]
      rfl
    · rw [inClause_map]
      rfl
  · intro q p e t run
    obtain ⟨added, rfl⟩ := resolve_grown run
    exact ⟨by rw [on_filter, run], rfl, rfl⟩

/-- Operations that put limits on the pay of people and on its sum. -/
def payLimits : List Operation :=
  let limit := Expr.literal (.integer 10) none
  [.annotate "total" (.aggregateOf .sum (.field "pay")),
    .exclude (.field "nothing"),
    .filter (.logic .and [.compare (.field "pay") .gt limit,
      .compare (.aggregateOf .sum (.field "pay")) .gt limit,
      .compare (.field "total") .lt limit] false)]

/-- A conjunction of a predicate on people and two on their sum is taken apart. -/
theorem predicates_routed_payLimits :
    (allStaff.after payLimits).conditions.length = 1 ∧
      (allStaff.after payLimits).groupConditions.length = 2 ∧
      (allStaff.after payLimits).Separated :=
  ⟨rfl, rfl, (predicates_routed ofTable_allStaff payLimits).1⟩

end Select

end BoundSql
