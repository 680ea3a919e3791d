import BoundSql.Proofs.Select.Routing

/-!
# Which statements are grouped

A query without a summary is grouped exactly when one of its computed columns or group conditions
aggregates (`groupBy_eq_none_iff`). What it selects and sorts by has no say in that, so a query that
aggregates there and nowhere else is not grouped (`groupBy_unaware_of_columns`).
-/

namespace BoundSql.Select

/-- Some expression of a list has an aggregate in it. -/
def Aggregates (es : List Expr) : Prop :=
  ∃ e ∈ es, ∃ n : Expr, n.Within e ∧ n.isAggregate = true

/-- The expressions of a statement for rows or groups, those of WHERE apart. -/
def rendered (s : Select) : List Expr :=
  s.selectList ++ s.computed.map (·.2) ++ s.groupConditions ++ s.order

variable {s : Select} {es fs : List Expr}

/-- Some expressions aggregate just when one of them contains an aggregate. -/
lemma aggregates_iff_any : Aggregates es ↔ es.any Expr.containsAggregate = true := by
  rw [List.any_eq_true]
  refine exists_congr fun e => and_congr_right fun _ => ?_
  exact (Expr.containsAggregate_iff e).symm

instance (es : List Expr) : Decidable (Aggregates es) :=
  decidable_of_iff _ aggregates_iff_any.symm

/-- Two lists aggregate together just when one of them does. -/
lemma aggregates_append : Aggregates (es ++ fs) ↔ Aggregates es ∨ Aggregates fs := by
  constructor
  · rintro ⟨e, mem, found⟩
    rcases List.mem_append.1 mem with mem | mem
    · exact .inl ⟨e, mem, found⟩
    · exact .inr ⟨e, mem, found⟩
  · rintro (⟨e, mem, found⟩ | ⟨e, mem, found⟩)
    · exact ⟨e, List.mem_append_left fs mem, found⟩
    · exact ⟨e, List.mem_append_right es mem, found⟩

/-- HAVING aggregates as soon as there is a predicate in it. -/
lemma Separated.groupConditions_eq_nil_iff (h : s.Separated) :
    s.groupConditions = [] ↔ ¬ Aggregates s.groupConditions := by
  constructor
  · intro nil
    rw [nil]
    rintro ⟨_, mem, _⟩
    cases mem
  · intro plain
    cases found : s.groupConditions with
    | nil => rfl
    | cons p ps =>
      have mem : p ∈ s.groupConditions := by
        rw [found]
        exact List.mem_cons_self
      exact absurd ⟨p, mem, h.groupConditions p mem⟩ plain

/-- Rows are grouped when a computed column or a group condition aggregates. -/
lemma Separated.ungrouped_iff (h : s.Separated) (rows : s.summary = []) :
    s.groupBy = none ↔ ¬ Aggregates (s.computed.map (·.2) ++ s.groupConditions) := by
  have grouped : s.groupBy = none ↔ s.isGrouped = false := by
    rw [groupBy]
    cases s.isGrouped with
    | true => exact iff_of_false nofun nofun
    | false => exact iff_of_true rfl rfl
  have computed : s.computed.any (·.2.containsAggregate) = false ↔
      ¬ Aggregates (s.computed.map (·.2)) := by
    rw [aggregates_iff_any, List.any_map, Bool.not_eq_true]
    rfl
  rw [grouped, isGrouped, rows, aggregates_append, not_or, ← computed,
    ← h.groupConditions_eq_nil_iff]
  simp

/-- After any operations that leave no summary, the statement is not grouped exactly when no computed
column and no group condition aggregates. So it is not grouped exactly when it does not aggregate
at all, provided that what it selects and sorts by aggregates only if one of these does. -/
theorem groupBy_eq_none_iff {c : Catalog} {name : String} (base : ofTable c name = .ok s)
    (operations : List Operation) (rows : (s.after operations).summary = []) :
    ((s.after operations).groupBy = none ↔
      ¬ Aggregates ((s.after operations).computed.map (·.2) ++
        (s.after operations).groupConditions)) ∧
    (((s.after operations).groupBy = none ↔ ¬ Aggregates (s.after operations).rendered) ↔
      (Aggregates ((s.after operations).selectList ++ (s.after operations).order) →
        Aggregates ((s.after operations).computed.map (·.2) ++
          (s.after operations).groupConditions))) := by
  have ungrouped := (separated_after base operations).ungrouped_iff rows
  refine ⟨ungrouped, ?_⟩
  rw [ungrouped]
  simp only [rendered, aggregates_append]
  tauto

/-- Operations that select a count beside a column. -/
def selectedCount : List Operation :=
  [.setColumns [.field "name", .aggregateOf .count (.field "pay")]]

/-- A count that is only selected leaves the statement without groups. -/
theorem groupBy_eq_none_selectedCount :
    (allStaff.after selectedCount).summary = [] ∧
      ((allStaff.after selectedCount).groupBy = none ↔
        ¬ Aggregates ((allStaff.after selectedCount).computed.map (·.2) ++
          (allStaff.after selectedCount).groupConditions)) := by
  refine ⟨rfl, ?_⟩
  exact (groupBy_eq_none_iff ofTable_allStaff selectedCount rfl).1

/-- A statement that is not grouped can aggregate: what it selects is not looked at. -/
theorem groupBy_unaware_of_columns :
    ¬ ∀ (c : Catalog) (name : String) (s : Select) (operations : List Operation),
      ofTable c name = .ok s → (s.after operations).summary = [] →
      ((s.after operations).groupBy = none ↔ ¬ Aggregates (s.after operations).rendered) := by
  intro claim
  have plain := (claim _ _ _ selectedCount ofTable_allStaff rfl).1 rfl
  apply plain
  decide

end BoundSql.Select
