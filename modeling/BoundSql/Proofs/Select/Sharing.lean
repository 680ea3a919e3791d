import BoundSql.Proofs.Select.Stability
import Mathlib.Data.List.Pairwise

/-!
# One join for each relation

The joins of a query are `Distinct`: no two of them follow one relation from one parent. Every relation
that is crossed keeps this, since a join is added only when no equivalent one is found, and so does
every operation that may share all joins. The joins that a path takes are its `Trail`, which stays a
trail in all later queries; two trails that pass one relation from one parent take one join there
(`joins_distinct`).
-/

namespace BoundSql.Select

/-- No two joins are equivalent. -/
def Distinct (s : Select) : Prop :=
  s.joins.Pairwise fun j k => j.isEquivalent k = false

/-- A relation that a path passes: the alias of the table that it starts from, the field and what this
points at, and the join that is taken. -/
structure Passage where
  parent : String
  column : Column
  relation : Relation
  join : Join

/-- The join of the passage is one of the query, and leads over the relation to the target. -/
structure Passage.Leads (p : Passage) (s : Select) (target : Table) : Prop where
  isRelation : p.column.relation = some p.relation
  isTable : s.catalog.table? p.relation.table = some target
  mem : p.join ∈ s.joins
  table : p.join.table = target.name
  parent : p.join.parent = p.parent
  parentColumn : p.join.parentColumn = p.column.store
  targetColumn : p.join.targetColumn = p.relation.column

/-- The passages of the relations of a path, from a table under an alias to the last alias. -/
inductive Trail (s : Select) : String → Table → List String → List Passage → String → Prop where
  | stop (tableAlias table) : Trail s tableAlias table [] [] tableAlias
  | pass {table segment hops target last} {p : Passage} {passages : List Passage} :
      table.column? segment = some p.column → p.Leads s target →
      Trail s p.join.tableAlias target hops passages last →
      Trail s p.parent table (segment :: hops) (p :: passages) last

/-- The trail of a path from the base table. -/
def BaseTrail (s : Select) : List String → List Passage → String → Prop :=
  s.Trail s.baseAlias s.table

variable {mode : Resolution} {path segment tableAlias last : String} {hops : List String}
  {table target : Table} {s t u : Select} {place next : Place} {j k : Join} {p q : Passage}
  {passages : List Passage}

/-- Joins are equivalent when they lead from one alias to one table over the same columns. -/
lemma isEquivalent_eq_true_iff : j.isEquivalent k = true ↔ j.table = k.table ∧ j.parent = k.parent ∧
    j.parentColumn = k.parentColumn ∧ j.targetColumn = k.targetColumn := by
  simp only [Join.isEquivalent, Bool.and_eq_true, beq_iff_eq, and_assoc]

/-- Equivalence of joins goes both ways. -/
lemma isEquivalent_comm (j k : Join) : j.isEquivalent k = k.isEquivalent j := by
  rw [Bool.eq_iff_iff, isEquivalent_eq_true_iff, isEquivalent_eq_true_iff]
  simp only [eq_comm]

/-- Among distinct joins equivalent ones are the same. -/
lemma Distinct.eq_of_isEquivalent (h : s.Distinct) (mem : j ∈ s.joins) (mem' : k ∈ s.joins)
    (equivalent : j.isEquivalent k = true) : j = k := by
  by_contra ne
  have symmetric : Std.Symm fun j k : Join => j.isEquivalent k = false :=
    ⟨fun j k apart => (isEquivalent_comm k j).trans apart⟩
  have apart : j.isEquivalent k = false := List.Pairwise.forall h mem mem' ne
  rw [equivalent] at apart
  cases apart

/-- Where every join may be used again, none is added that has an equivalent. -/
lemma Distinct.join (h : s.Distinct) (shares : mode.reuse = none)
    (run : (Select.join mode j).on s = (.ok tableAlias, t)) : t.Distinct := by
  rcases join_cases mode j s with ⟨k, -, run'⟩ | ⟨missing, run'⟩
  · cases run'.symm.trans run
    exact h
  · cases run'.symm.trans run
    refine List.pairwise_append.2 ⟨h, List.pairwise_singleton _ _, fun k mem new isNew => ?_⟩
    obtain rfl := List.mem_singleton.1 isNew
    -- the search was over all joins, since each of them may be shared
    have differs := List.find?_eq_none.1 missing k mem
    rw [Resolution.mayReuse, shares, Bool.and_true, Bool.not_eq_true] at differs
    exact differs

/-- Crossing a relation adds no equivalent of a join. -/
lemma Crosses.distinct (crosses : Crosses mode s place segment t next) (h : s.Distinct)
    (shares : mode.reuse = none) : t.Distinct := by
  obtain ⟨-, -, -, -, run⟩ := crosses
  exact h.join shares run

/-- Crossing relations adds no equivalent of a join. -/
lemma Walk.distinct {last : Place} (walk : Walk mode s place hops t last) (h : s.Distinct)
    (shares : mode.reuse = none) : t.Distinct := by
  induction walk with
  | stop => exact h
  | cross crosses _ ih => exact ih (crosses.distinct h shares)

/-- A path keeps the joins distinct, whether it resolves or fails. -/
lemma Distinct.resolveField (h : s.Distinct) (shares : mode.reuse = none) (path : String) :
    ((Select.resolveField mode path).on s).2.Distinct := by
  rcases resolveField_cases mode path s with
    ⟨_, _, run, -⟩ | ⟨_, _, _, run, -, walk, -⟩ | ⟨_, _, _, _, run, -, walk⟩
  · rw [run]
    exact h
  · rw [run]
    exact walk.distinct h shares
  · rw [run]
    exact walk.distinct h shares

/-- Whether joins are equivalent depends on the joins alone. -/
lemma Distinct.of_tables (h : s.Distinct) (joins : t.joins = s.joins) : t.Distinct := by
  rw [Distinct, joins]
  exact h

/-- A relation that was crossed is passed, with the join that was shared or added. -/
lemma Crosses.passage (crosses : Crosses mode s place segment t next) :
    ∃ p : Passage, p.parent = place.tableAlias ∧ place.table.column? segment = some p.column ∧
      p.join.tableAlias = next.tableAlias ∧ p.Leads t next.table := by
  have grown := crosses.grown
  cases crosses with
  | @relation column relation target _ isField isRelation _ isTable run =>
    have passed (j : Join) (mem : j ∈ t.joins)
        (same : j.isEquivalent (joinFrom place column relation target) = true) :
        (Passage.mk place.tableAlias column relation j).Leads t target := by
      obtain ⟨table, parent, parentColumn, targetColumn⟩ := isEquivalent_eq_true_iff.1 same
      refine ⟨isRelation, ?_, mem, table, parent, parentColumn, targetColumn⟩
      rw [grown.extends.catalog]
      exact isTable
    rcases join_cases mode (joinFrom place column relation target) s with ⟨k, shared, run'⟩ | ⟨-, run'⟩
    · cases run'.symm.trans run
      have same := List.find?_some shared
      rw [Bool.and_eq_true] at same
      exact ⟨_, rfl, isField, rfl, passed k (List.mem_of_find?_eq_some shared) same.1⟩
    · cases run'.symm.trans run
      have mem : { joinFrom place column relation target with
          tableAlias := s.freshAlias target.store } ∈ (s.addJoin _).joins :=
        List.mem_append_right _ (List.mem_singleton_self _)
      refine ⟨_, rfl, isField, rfl, passed _ mem ?_⟩
      exact isEquivalent_eq_true_iff.2 ⟨rfl, rfl, rfl, rfl⟩

/-- A passage lasts as the query is extended. -/
lemma Passage.Leads.mono (leads : p.Leads s target) (later : s.Extends t) : p.Leads t target where
  isRelation := leads.isRelation
  isTable := by
    rw [later.catalog]
    exact leads.isTable
  mem := later.joins.subset leads.mem
  table := leads.table
  parent := leads.parent
  parentColumn := leads.parentColumn
  targetColumn := leads.targetColumn

/-- A walk leaves a trail, in all later queries. -/
lemma Walk.trail {last : Place} (walk : Walk mode s place hops t last) (later : t.Extends u) :
    ∃ passages, u.Trail place.tableAlias place.table hops passages last.tableAlias := by
  induction walk with
  | stop => exact ⟨[], .stop _ _⟩
  | cross crosses walk ih =>
    obtain ⟨passages, trail⟩ := ih later
    obtain ⟨p, parent, isField, tableAlias, leads⟩ := crosses.passage
    rw [← tableAlias] at trail
    rw [← parent]
    exact ⟨p :: passages, .pass isField (leads.mono (walk.grown.extends.trans later)) trail⟩

/-- A path that resolved to a column has left a trail to its table. -/
lemma exists_trail {name : String} {type : Option SqlType}
    (run : (resolveField mode path).on s = (.ok (.column tableAlias name type), t))
    (later : t.Extends u) :
    ∃ passages, u.BaseTrail (FieldPath.ofString path).hops passages tableAlias := by
  rcases resolveField_cases mode path s with
    ⟨_, _, run', -⟩ | ⟨place, column, t', run', -, walk, -⟩ | ⟨_, _, _, _, run', -⟩
  · cases run'.symm.trans run
  · cases run'.symm.trans run
    have base : u.table = s.table := (walk.grown.extends.trans later).table
    rw [BaseTrail, baseAlias, base]
    exact walk.trail later
  · cases run'.symm.trans run

/-- Every passage of a trail leads somewhere. -/
lemma Trail.leads (trail : s.Trail tableAlias table hops passages last) (mem : p ∈ passages) :
    ∃ target, p.Leads s target := by
  induction trail with
  | stop => cases mem
  | pass _ leads _ ih =>
    rcases List.mem_cons.1 mem with rfl | mem
    · exact ⟨_, leads⟩
    · exact ih mem

/-- Passages of one relation from one parent take one join. -/
lemma Distinct.join_eq {target' : Table} (h : s.Distinct) (leads : p.Leads s target)
    (leads' : q.Leads s target') (parent : p.parent = q.parent)
    (store : p.column.store = q.column.store) (relation : p.relation = q.relation) :
    p.join = q.join := by
  -- the relation names its target, whatever name the target has itself
  have same : target = target' := by
    have found := leads.isTable
    rw [relation, leads'.isTable] at found
    exact (Option.some.inj found).symm
  refine h.eq_of_isEquivalent leads.mem leads'.mem (isEquivalent_eq_true_iff.2 ⟨?_, ?_, ?_, ?_⟩)
  · rw [leads.table, leads'.table, same]
  · rw [leads.parent, leads'.parent, parent]
  · rw [leads.parentColumn, leads'.parentColumn, store]
  · rw [leads.targetColumn, leads'.targetColumn, relation]

/-- After operations that may share all joins, whatever they are given and whether they succeed or
fail, no two joins are equivalent. A path that resolved to a column at any time before has a trail in
the query, and two trails that pass one relation from one parent take one join there, with its alias. -/
theorem joins_distinct {c : Catalog} {name : String} (base : ofTable c name = .ok s)
    {operations : List Operation}
    (shares : ∀ mode e, .resolve mode e ∈ operations → mode.reuse = none) :
    let u := s.after operations
    u.joins.Pairwise (fun j k => j.isEquivalent k = false) ∧
    (∀ mode path q t tableAlias name type,
      (resolveField mode path).on q = (.ok (.column tableAlias name type), t) → t.Extends u →
        ∃ passages, u.BaseTrail (FieldPath.ofString path).hops passages tableAlias) ∧
    ∀ hops passages last hops' passages' last',
      u.BaseTrail hops passages last → u.BaseTrail hops' passages' last' →
        ∀ p ∈ passages, ∀ p' ∈ passages', p.parent = p'.parent →
          p.column.store = p'.column.store → p.relation = p'.relation → p.join = p'.join := by
  intro u
  have distinct : u.Distinct := by
    apply after_tables fun h _ _ joins => h.of_tables joins
    · intro operation mem path s h
      refine h.resolveField ?_ path
      cases operation with
      | resolve mode e => exact shares mode e mem
      | _ => rfl
    · obtain ⟨table, rfl⟩ := eq_of_ofTable base
      exact List.Pairwise.nil
  refine ⟨distinct, fun _ _ _ _ _ _ _ run later => exists_trail run later, ?_⟩
  intro _ _ _ _ _ _ trail trail' p mem p' mem' parent store relation
  obtain ⟨_, leads⟩ := trail.leads mem
  obtain ⟨_, leads'⟩ := trail'.leads mem'
  exact distinct.join_eq leads leads' parent store relation

/-- Operations on people and those above them, where one path fails after its first relation. -/
def sharedSuperiors : List Operation :=
  [.annotate "chief" (.field "boss.boss.name"),
    .setColumns [.field "boss.pay", .field "boss.nothing"],
    .orderBy [.field "boss.boss.pay"],
    .resolve {} (.field "boss.boss.boss.name")]

/-- All paths to superiors share their joins. -/
theorem joins_distinct_sharedSuperiors :
    let u := allStaff.after sharedSuperiors
    u.joins.map (fun j => (j.parent, j.tableAlias)) = [("T2", "T3"), ("T3", "T4"), ("T4", "T5")] ∧
      u.joins.Pairwise (fun j k => j.isEquivalent k = false) ∧
      ∃ passages passages', u.BaseTrail ["boss"] passages "T3" ∧
        u.BaseTrail ["boss", "boss"] passages' "T4" ∧
        ∀ p ∈ passages, ∀ p' ∈ passages', p.parent = p'.parent →
          p.column.store = p'.column.store → p.relation = p'.relation → p.join = p'.join := by
  intro u
  have shares : ∀ mode e, .resolve mode e ∈ sharedSuperiors → mode.reuse = none := by
    intro mode e mem
    have only : Operation.resolve mode e = .resolve {} (.field "boss.boss.boss.name") := by
      simpa [sharedSuperiors] using mem
    cases only
    rfl
  obtain ⟨distinct, trails, shared⟩ := joins_distinct ofTable_allStaff shares
  obtain ⟨passages, trail⟩ := trails {} "boss.name" u u "T3" "name" (some .text) rfl (.refl u)
  obtain ⟨passages', trail'⟩ := trails {} "boss.boss.pay" u u "T4" "pay" (some .integer) rfl (.refl u)
  exact ⟨by decide, distinct, passages, passages', trail, trail',
    shared _ _ _ _ _ _ trail trail'⟩

end BoundSql.Select
