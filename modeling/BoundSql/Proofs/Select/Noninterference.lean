import BoundSql.Proofs.Select.Statement
import BoundSql.Proofs.Select.Twin
import BoundSql.Proofs.Sql.Twin

/-!
# Noninterference

The values of literals have no influence on a query but for the parameters of its statement. Two
runs of operations whose trees are twins answer alike step by step, and leave twin queries; these
group by the same columns and have the same statement, with parameters that are related one by one.
-/

namespace BoundSql.Select

open Select.Action Renderer

variable {R : Value → Value → Prop} {s t : Select} {d : Dialect}

section Statements

/-- Twins select twins. -/
lemma Twin.selectList (h : s.Twin R t) : List.Forall₂ (Expr.Twin R) s.selectList t.selectList := by
  have base : s.baseColumns = t.baseColumns := by
    rw [baseColumns, baseColumns, baseAlias, baseAlias, h.table]
  rw [Select.selectList, Select.selectList, isEmpty_eq_of_forall₂ h.columns]
  split
  · rw [base]
    refine List.forall₂_same.2 fun e mem => ?_
    obtain ⟨column, -, rfl⟩ := List.mem_map.1 mem
    exact .column _ _ _
  · exact h.columns

/-- Lists of named twins have twins for trees. -/
lemma trees_twin {l l' : List (String × Expr)} (h : List.Forall₂ (TwinNamed R) l l') :
    List.Forall₂ (Expr.Twin R) (l.map (·.2)) (l'.map (·.2)) := by
  rw [List.forall₂_map_left_iff, List.forall₂_map_right_iff]
  exact h.imp fun _ _ named => named.2

/-- Twins group by the same columns, if at all. -/
lemma Twin.groupBy (h : s.Twin R t) : s.groupBy = t.groupBy := by
  have aggregates :
      s.computed.any (·.2.containsAggregate) = t.computed.any (·.2.containsAggregate) := by
    have trees := Expr.Twin.any_containsAggregate (trees_twin h.computed)
    simpa only [List.any_map, Function.comp_def] using trees
  have grouped : s.isGrouped = t.isGrouped := by
    rw [isGrouped, isGrouped, isEmpty_eq_of_forall₂ h.summary, aggregates,
      isEmpty_eq_of_forall₂ h.groupConditions]
  have keys : s.groupKeys = t.groupKeys := by
    have used := List.rel_append (List.rel_append (List.rel_append h.selectList
      (trees_twin h.computed)) h.groupConditions) h.order
    rw [groupKeys, groupKeys, List.flatMap_def, List.flatMap_def,
      map_eq_of_forall₂ (fun twin => twin.bareColumns) used]
  rw [Select.groupBy, Select.groupBy, grouped, keys]

/-- The columns to group by hold no values. -/
lemma groupBy_twin : List.Forall₂ (Expr.Twin R) (s.groupBy.getD []) (s.groupBy.getD []) := by
  -- a value need not be related to itself, so this is for trees without values only
  refine List.forall₂_same.2 fun e mem => ?_
  obtain ⟨columnar, -⟩ := mem_groupBy mem
  cases e with
  | column => exact .column _ _ _
  | field => exact .field _
  | _ => simp [Expr.isColumn, Expr.isField] at columnar

variable (same : ∀ v v', R v v' → v.SameVariant v')
include same

/-- Named twins render alike. -/
lemma twin_renderNamed {a b : String × Expr} (h : TwinNamed R a b) :
    SameRendering R (renderNamed (.standard d) a) (renderNamed (.standard d) b) := by
  rw [renderNamed, renderNamed, h.1]
  exact (twin_render same h.2).bind fun body => .ok (body.mapSql _)

/-- Trees in a row are written alike. -/
lemma twin_renderAll {es es' : List Expr} (h : List.Forall₂ (Expr.Twin R) es es') :
    SameOutcome Eq (List.Forall₂ (Fragment.Twin R)) (es.mapM (standard d).render)
      (es'.mapM (standard d).render) :=
  (lifting_sameOutcome Eq).mapM (twin_render same) h

/-- Lists of named twins render alike, one by one. -/
lemma twin_renderAllNamed {l l' : List (String × Expr)} (h : List.Forall₂ (TwinNamed R) l l') :
    SameOutcome Eq (List.Forall₂ (Fragment.Twin R)) (l.mapM (renderNamed (.standard d)))
      (l'.mapM (renderNamed (.standard d))) :=
  (lifting_sameOutcome Eq).mapM (twin_renderNamed same) h

/-- The selections of twins render alike. -/
lemma twin_renderSelected (h : s.Twin R t) :
    SameRendering R (s.renderSelected (.standard d)) (t.renderSelected (.standard d)) := by
  rw [renderSelected, renderSelected, isEmpty_eq_of_forall₂ h.summary]
  split
  · refine (twin_renderAll same h.selectList).bind fun columns => ?_
    refine (twin_renderAllNamed same h.computed).bind fun computed => .ok ?_
    exact Fragment.twin_join _ (List.rel_append columns computed)
  · refine (twin_renderAllNamed same h.summary).bind fun summary => .ok ?_
    exact Fragment.twin_join _ summary

/-- A clause of twins renders alike. -/
lemma twin_renderClause (keyword separator : String) {es es' : List Expr}
    (h : List.Forall₂ (Expr.Twin R) es es') :
    SameRendering R (renderClause (.standard d) keyword separator es)
      (renderClause (.standard d) keyword separator es') := by
  rw [renderClause, renderClause, isEmpty_eq_of_forall₂ h]
  split
  · exact .ok (Fragment.twin_raw "")
  · have body : SameRendering R ((standard d).renderList separator es)
        ((standard d).renderList separator es') :=
      (twin_renderAll same h).bind fun parts => .ok (Fragment.twin_join _ parts)
    exact body.bind fun written => .ok (written.mapSql _)

/-- Twins have the same statement. -/
theorem twin_statement (h : s.Twin R t) (d : Dialect) :
    SameRendering R (s.render (.standard d)) (t.render (.standard d)) := by
  have order : List.Forall₂ (Expr.Twin R) (if s.summary.isEmpty then s.order else [])
      (if t.summary.isEmpty then t.order else []) := by
    rw [isEmpty_eq_of_forall₂ h.summary]
    split
    · exact h.order
    · exact .nil
  have tables : s.renderTables (.standard d) = t.renderTables (.standard d) := by
    rw [renderTables, renderTables, h.table, h.joins]
  rw [Select.render, Select.render, ← h.groupBy, tables]
  refine (twin_renderSelected same h).bind fun selected => ?_
  refine (twin_renderClause same _ _ h.conditions).bind fun conditions => ?_
  refine (twin_renderClause same _ _ groupBy_twin).bind fun groups => ?_
  refine (twin_renderClause same _ _ h.groupConditions).bind fun groupConditions => ?_
  refine (twin_renderClause same _ _ order).bind fun order => .ok ?_
  exact Fragment.twin_join _ (.cons (Fragment.twin_raw _) (.cons selected
    (.cons (Fragment.twin_raw _) (.cons conditions (.cons groups
      (.cons groupConditions (.cons order .nil)))))))

end Statements

/-- What an operation answers. -/
inductive Answer where
  | done
  /-- The clauses that predicates went to. -/
  | routed (clauses : List Clause)
  /-- The tree that a tree was resolved to. -/
  | resolved (e : Expr)

/-- An operation with its answer. -/
def Operation.answering : Operation → Action Answer
  | .annotate name e => do Select.annotate name e; return .done
  | .filter p => return .routed (← Select.filter p)
  | .exclude p => return .routed [← Select.exclude p]
  | .setColumns es => do Select.setColumns es; return .done
  | .orderBy es => do Select.orderBy es; return .done
  | .summarize name e => do Select.summarize name e; return .done
  | .resolve mode e => return .resolved (← Select.resolve mode e)

/-- An operation does the same to the query with and without its answer. -/
lemma on_answering_snd (operation : Operation) (s : Select) :
    (operation.answering.on s).2 = (operation.action.on s).2 := by
  have answered {α : Type} (x : Action α) (answer : α → Answer) :
      ((do return answer (← x) : Action Answer).on s).2 = (x.on s).2 := by
    rw [on_bind]
    split <;> simp [*]
  cases operation with
  | annotate | setColumns | orderBy | summarize => exact answered _ _
  | filter | exclude | resolve =>
    rw [Operation.action, on_discard_snd]
    exact answered _ _

/-- The answers of operations, one after another, whether they succeed or fail. -/
def answers (s : Select) : List Operation → List (Except Error Answer)
  | [] => []
  | operation :: rest => (operation.answering.on s).1 :: answers (operation.action.on s).2 rest

/-- The same answer, with trees that are twins. -/
inductive Answer.Twin (R : Value → Value → Prop) : Answer → Answer → Prop where
  | done : Twin R .done .done
  | routed (clauses) : Twin R (.routed clauses) (.routed clauses)
  | resolved {e e'} : e.Twin R e' → Twin R (.resolved e) (.resolved e')

/-- The same operation, with trees that are twins. -/
inductive Operation.Twin (R : Value → Value → Prop) : Operation → Operation → Prop where
  | annotate {name e e'} : e.Twin R e' → Twin R (.annotate name e) (.annotate name e')
  | filter {p p'} : p.Twin R p' → Twin R (.filter p) (.filter p')
  | exclude {p p'} : p.Twin R p' → Twin R (.exclude p) (.exclude p')
  | setColumns {es es'} : List.Forall₂ (Expr.Twin R) es es' →
      Twin R (.setColumns es) (.setColumns es')
  | orderBy {es es'} : List.Forall₂ (Expr.Twin R) es es' → Twin R (.orderBy es) (.orderBy es')
  | summarize {name e e'} : e.Twin R e' → Twin R (.summarize name e) (.summarize name e')
  | resolve {mode e e'} : e.Twin R e' → Twin R (.resolve mode e) (.resolve mode e')

/-- Operations that are twins have answers and leave queries that are twins. -/
lemma Operation.Twin.parallel {operation operation' : Operation} (h : operation.Twin R operation') :
    Parallel R (Answer.Twin R) operation.answering operation'.answering := by
  cases h with
  | annotate h => exact (parallel_annotate _ h).bind fun _ => parallel_pure .done
  | setColumns h => exact (parallel_setColumns h).bind fun _ => parallel_pure .done
  | orderBy h => exact (parallel_orderBy h).bind fun _ => parallel_pure .done
  | summarize h => exact (parallel_summarize _ h).bind fun _ => parallel_pure .done
  | filter h =>
    refine (parallel_filter h).bind ?_
    rintro clauses _ rfl
    exact parallel_pure (.routed clauses)
  | exclude h =>
    refine (parallel_exclude h).bind ?_
    rintro clause _ rfl
    exact parallel_pure (.routed [clause])
  | resolve h => exact (parallel_resolve _ h).bind fun result => parallel_pure (.resolved result)

/-- Operations that are twins answer alike on twins one after another, and leave twins. -/
lemma Twin.run {operations operations' : List Operation}
    (h : List.Forall₂ (Operation.Twin R) operations operations') (twin : s.Twin R t) :
    List.Forall₂ (SameOutcome Error.Twin (Answer.Twin R)) (s.answers operations)
      (t.answers operations') ∧ (s.after operations).Twin R (t.after operations') := by
  induction h generalizing s t with
  | nil => exact ⟨.nil, twin⟩
  | @cons operation operation' rest rest' first _ ih =>
    -- a step that fails leaves twins as well, so the runs go on
    obtain ⟨outcome, next⟩ := first.parallel s t twin
    rw [on_answering_snd, on_answering_snd] at next
    obtain ⟨outcomes, last⟩ := ih next
    exact ⟨.cons outcome outcomes, last⟩

/-- Two runs of the same operations on a table, with trees that differ only in the values of
literals, answer alike step by step: both succeed, with the same clauses for predicates, or both fail
with the same kind of error. Afterwards they group by the same columns, and in every dialect they have
the same statement or fail with the same error; the parameters are related as the literals are. -/
theorem literals_unseen (same : ∀ v v', R v v' → v.SameVariant v') {c : Catalog} {name : String}
    (base : ofTable c name = .ok s) {operations operations' : List Operation}
    (h : List.Forall₂ (Operation.Twin R) operations operations') :
    List.Forall₂ (SameOutcome Error.Twin (Answer.Twin R)) (s.answers operations)
      (s.answers operations') ∧
    (s.after operations).groupBy = (s.after operations').groupBy ∧
    ∀ d, SameOutcome Eq (Fragment.Twin R) ((s.after operations).render (.standard d))
      ((s.after operations').render (.standard d)) := by
  obtain ⟨table, rfl⟩ := eq_of_ofTable base
  have start : Twin R ⟨c, table, [], [], [], [], [], [], []⟩
      ⟨c, table, [], [], [], [], [], [], []⟩ :=
    ⟨rfl, rfl, rfl, .nil, .nil, .nil, .nil, .nil, .nil⟩
  obtain ⟨outcomes, last⟩ := start.run h
  exact ⟨outcomes, last.groupBy, twin_statement same last⟩

/-- Operations with a limit and a name in their literals. The last one fails. -/
def paidOver (limit : Int64) (name : String) : List Operation :=
  let limit := Expr.literal (.integer limit) none
  [.annotate "left" (.arith limit .sub (.field "pay") none),
    .filter (.compare (.field "boss.name") .ne (.literal (.text name) none)),
    .annotate "most" (.aggregateOf .max (.aggregateOf .sum limit))]

/-- Other values in the literals leave the text as it is. -/
theorem literals_unseen_paidOver :
    ∃ a b, (allStaff.after (paidOver 10 "Ada")).render (.standard .mysql) = .ok a ∧
      (allStaff.after (paidOver 90 "' OR 1 = 1")).render (.standard .mysql) = .ok b ∧
      a.params = [.integer 10, .text "Ada"] ∧ b.params = [.integer 90, .text "' OR 1 = 1"] ∧
      a.sql = b.sql := by
  have number : Expr.Twin Value.SameVariant (.literal (.integer 10) none)
      (.literal (.integer 90) none) := .literal trivial
  have twins : List.Forall₂ (Operation.Twin Value.SameVariant) (paidOver 10 "Ada")
      (paidOver 90 "' OR 1 = 1") :=
    .cons (.annotate (.arith number (.field "pay")))
      (.cons (.filter (.compare (.field "boss.name") (.literal trivial)))
        (.cons (.annotate (.aggregate (.cons (.aggregate (.cons number .nil)) .nil))) .nil))
  obtain ⟨-, -, statement⟩ := literals_unseen (fun _ _ => id) ofTable_allStaff twins
  exact ⟨_, _, rfl, rfl, rfl, rfl, (SameOutcome.of_ok (statement .mysql)).sql⟩

end BoundSql.Select
