import BoundSql.Proofs.Schema.Catalog
import BoundSql.Proofs.Select.FreshAlias
import BoundSql.Proofs.Select.Steps

/-!
# Scoping

Every alias that a statement mentions is bound once, and before it is mentioned. The invariant is
`Scoped`: the aliases differ, a join starts from a table that is there before it, every join leads to
a table of the catalog, and each column of a stored expression is one of the table that its alias
stands for. Crossing a relation keeps the part on joins, whether the join is shared or new
(`Crosses.joined`), and every step keeps all of it (`Step.scoped`). So it holds of every query that
operations can reach (`scoped_after`).
-/

namespace BoundSql.Select

/-- The alias stands for the table: it is that of the base table, or of a join that leads there. -/
inductive Names (s : Select) : String → Table → Prop where
  | base : Names s s.baseAlias s.table
  | joined {j t} : j ∈ s.joins → s.catalog.table? j.table = some t → j.store = t.store →
      Names s j.tableAlias t

/-- If the node is a column, then its alias stands for a table that stores the column. -/
def Binds (s : Select) (n : Expr) : Prop :=
  ∀ tableAlias name type, n = .column tableAlias name type →
    ∃ t, s.Names tableAlias t ∧ ∃ column ∈ t.columns, column.store = name

/-- The joins of the query follow each other: no two tables have one alias, each join starts from
the base table or from a join before it, and leads to a table of the catalog. -/
structure Joined (s : Select) : Prop where
  built : s.catalog.Built
  aliases : s.aliases.Nodup
  parents : ∀ front j back, s.joins = front ++ j :: back →
    j.parent ∈ s.baseAlias :: front.map (·.tableAlias)
  tables : ∀ j ∈ s.joins, ∃ t, s.catalog.table? j.table = some t ∧ j.store = t.store

/-- The joins follow each other, and each column of a stored expression is bound by them. -/
structure Scoped (s : Select) : Prop extends Joined s where
  columns : ∀ e ∈ s.stored, e.Throughout s.Binds

open Select.Action

variable {mode : Resolution} {s t u : Select} {tableAlias : String} {table : Table}

/-- What stands for a table is an alias of the query. -/
lemma Names.mem_aliases (h : s.Names tableAlias table) : tableAlias ∈ s.aliases := by
  cases h with
  | base => exact List.mem_cons_self
  | joined mem => exact List.mem_cons_of_mem _ (List.mem_map_of_mem mem)

/-- An alias stands for its table in every query with the same tables and maybe more. -/
lemma Names.mono (h : s.Names tableAlias table) (catalog : t.catalog = s.catalog)
    (base : t.table = s.table) (joins : s.joins ⊆ t.joins) : t.Names tableAlias table := by
  cases h with
  | base =>
    have eq : s.baseAlias = t.baseAlias := by rw [baseAlias, baseAlias, base]
    rw [eq, ← base]
    exact .base
  | joined mem found store => exact .joined (joins mem) (by rwa [catalog]) store

/-- A table that an alias stands for is one of the catalog, as long as the base table is. -/
lemma Names.exists_table? (h : s.Names tableAlias table)
    (base : s.catalog.table? s.table.name = some s.table) :
    ∃ name, s.catalog.table? name = some table := by
  cases h with
  | base => exact ⟨_, base⟩
  | joined _ found => exact ⟨_, found⟩

/-- A column stays bound as joins are added. -/
lemma Binds.mono {n : Expr} (h : s.Binds n) (catalog : t.catalog = s.catalog)
    (base : t.table = s.table) (joins : s.joins ⊆ t.joins) : t.Binds n := by
  intro tableAlias name type eq
  obtain ⟨table, names, stores⟩ := h tableAlias name type eq
  exact ⟨table, names.mono catalog base joins, stores⟩

/-- A column stays bound as paths are resolved. -/
lemma Binds.grown {n : Expr} (h : s.Binds n) (grown : Grown s t) : t.Binds n := by
  obtain ⟨added, rfl⟩ := grown
  exact h.mono rfl rfl (List.subset_append_left _ added)

/-- Whether joins follow each other is seen from the tables alone. -/
lemma Joined.of_tables (h : s.Joined) (catalog : t.catalog = s.catalog) (table : t.table = s.table)
    (joins : t.joins = s.joins) : t.Joined where
  built := by
    rw [catalog]
    exact h.built
  aliases := by
    rw [Select.aliases, baseAlias, table, joins]
    exact h.aliases
  parents := by
    rw [joins, baseAlias, table]
    exact h.parents
  tables := by
    rw [joins, catalog]
    exact h.tables

/-- A new join may start from every alias of the query. -/
lemma Joined.addJoin {j : Join} (h : s.Joined) (parent : j.parent ∈ s.aliases)
    (found : s.catalog.table? j.table = some table) (store : j.store = table.store) :
    (s.addJoin j).Joined where
  built := h.built
  aliases := by
    have fresh := s.freshAlias_not_mem j.store
    have aliases : (s.addJoin j).aliases = s.aliases ++ [s.freshAlias j.store] := by
      simp [Select.aliases, Select.addJoin, baseAlias]
    rw [aliases, List.nodup_append]
    refine ⟨h.aliases, List.nodup_singleton _, fun a mem b mem' => ?_⟩
    rw [List.mem_singleton.1 mem']
    intro eq
    exact fresh (eq ▸ mem)
  parents front k back eq := by
    have eq : s.joins ++ [_] = front ++ k :: back := eq
    -- the new join is the last one, and any other starts where it did
    rcases List.eq_nil_or_concat back with rfl | ⟨before, last, rfl⟩
    · obtain ⟨joins, single⟩ := List.append_inj' eq rfl
      obtain rfl := List.singleton_inj.1 single
      rw [← joins]
      exact parent
    · rw [List.concat_eq_append, ← List.cons_append, ← List.append_assoc] at eq
      obtain ⟨joins, -⟩ := List.append_inj' eq rfl
      exact h.parents front k before joins
  tables k mem := by
    rcases List.mem_append.1 (mem : k ∈ s.joins ++ [_]) with mem | mem
    · exact h.tables k mem
    · obtain rfl := List.mem_singleton.1 mem
      exact ⟨table, found, store⟩

/-- A join that is shared or added leads to its table under the alias that it gets. -/
lemma Joined.join {j : Join} (h : s.Joined) (parent : j.parent ∈ s.aliases)
    (found : s.catalog.table? j.table = some table) (store : j.store = table.store)
    (run : (join mode j).on s = (.ok tableAlias, t)) :
    t.Joined ∧ t.Names tableAlias table := by
  rcases join_cases mode j s with ⟨k, shared, run'⟩ | ⟨-, run'⟩
  · cases run'.symm.trans run
    -- the join that is shared leads to the same table of the catalog
    have mem := List.mem_of_find?_eq_some shared
    have same := List.find?_some shared
    simp only [Join.isEquivalent, Bool.and_eq_true, beq_iff_eq] at same
    rw [← same.1.1.1.1] at found
    obtain ⟨table', found', store'⟩ := h.tables k mem
    obtain rfl := Option.some.inj (found.symm.trans found')
    exact ⟨h, .joined mem found store'⟩
  · cases run'.symm.trans run
    have mem : { j with tableAlias := s.freshAlias j.store } ∈ (s.addJoin j).joins :=
      List.mem_append_right s.joins (List.mem_singleton_self _)
    exact ⟨h.addJoin parent found store, .joined mem found store⟩

/-- The join for a relation has its target and column. -/
lemma relation_joinFrom {column : Column} {relation : Relation} {target : Table} (built : s.catalog.Built)
    (isRelation : column.relation = some relation)
    (isTable : s.catalog.table? relation.table = some target) (place : Place) :
    column.relation = some ⟨(joinFrom place column relation target).table,
      (joinFrom place column relation target).targetColumn⟩ := by
  have name : (joinFrom place column relation target).table = relation.table := built.name_eq isTable
  rw [isRelation, name]
  rfl

/-- Crossing a relation leads from a table of the query to one. -/
lemma Crosses.joined {place next : Place} {segment : String}
    (crosses : Crosses mode s place segment t next) (h : s.Joined)
    (names : s.Names place.tableAlias place.table) :
    t.Joined ∧ t.Names next.tableAlias next.table := by
  cases crosses with
  | @relation column relation target tableAlias _ _ _ found run =>
    have registered : s.catalog.table? target.name = some target := by
      rwa [h.built.name_eq found]
    exact h.join names.mem_aliases registered rfl run

/-- A walk leads from a table of the query to one. -/
lemma Walk.joined {place last : Place} {hops : List String} (walk : Walk mode s place hops t last)
    (h : s.Joined) (names : s.Names place.tableAlias place.table) :
    t.Joined ∧ t.Names last.tableAlias last.table := by
  induction walk with
  | stop => exact ⟨h, names⟩
  | cross crosses _ ih =>
    obtain ⟨h, names⟩ := crosses.joined h names
    exact ih h names

/-- A path keeps the joins following each other, whether it resolves or fails. -/
lemma Joined.resolveField (h : s.Joined) (path : String) :
    ((resolveField mode path).on s).2.Joined := by
  rcases resolveField_cases mode path s with
    ⟨_, _, run, -⟩ | ⟨_, _, t, run, -, walk, -⟩ | ⟨_, _, _, t, run, -, walk⟩
  · rw [run]
    exact h
  · rw [run]
    exact (walk.joined h .base).1
  · rw [run]
    exact (walk.joined h .base).1

/-- A query stays scoped when joins that follow each other are added. -/
lemma Scoped.grown (h : s.Scoped) (grown : Grown s t) (joined : t.Joined) : t.Scoped where
  toJoined := joined
  columns e mem n within := by
    rw [grown.stored_eq] at mem
    exact (h.columns e mem n within).grown grown

/-- Resolving a path leaves no column unbound. -/
lemma Scoped.resolveField (h : s.Scoped) (path : String) :
    ((resolveField mode path).on s).2.Scoped :=
  h.grown (resolveField_grown rfl) (h.toJoined.resolveField path)

/-- The columns of what a path resolves to are bound. -/
lemma Scoped.answer {path : String} {r : Expr} (h : s.Scoped)
    (run : (Select.resolveField mode path).on s = (.ok r, t)) : r.Throughout t.Binds := by
  rcases resolveField_cases mode path s with
    ⟨name, source, run', found, -⟩ | ⟨place, column, u, run', -, walk, found⟩ | ⟨_, _, _, _, run', -⟩
  · cases run'.symm.trans run
    have isRef : s.Binds (.ref name source) := by
      intro _ _ _ eq
      cases eq
    have computed : source ∈ s.computed.map (·.2) :=
      List.mem_map_of_mem (List.mem_of_find?_eq_some found)
    exact .of_source rfl isRef (h.columns source (by simp [stored, computed]))
  · cases run'.symm.trans run
    refine .of_leaf rfl ?_
    intro _ _ _ eq
    cases eq
    have names := (walk.joined h.toJoined .base).2
    exact ⟨place.table, names, column, List.mem_of_find?_eq_some found, rfl⟩
  · cases run'.symm.trans run

/-- Resolving trees without columns and references of their own keeps the query scoped, and the
columns of the results are bound. -/
lemma scoped_kept :
    Kept (·.Throughout fun n => n.isColumn = false ∧ n.isRef = false) Scoped Binds where
  field _ path _ h := h.resolveField path
  answer h run := h.answer run
  grown grown binds := binds.grown grown
  plain unbound n within := (unbound n within).2
  node {e m sources} unbound within _ _ summarize := by
    intro tableAlias name type eq
    -- a column over new sources would have been one before
    have isColumn := m.isColumn_rebound summarize sources
    rw [eq, (unbound m within).1] at isColumn
    contradiction

/-- Every step with such trees keeps the query scoped. -/
lemma Step.scoped (step : Step (·.Throughout fun n => n.isColumn = false ∧ n.isRef = false) s t)
    (h : s.Scoped) : t.Scoped := by
  cases step with
  | resolve mode => exact scoped_kept.resolve h mode _
  | store resolved stores =>
    obtain ⟨keeps, bound⟩ := scoped_kept.resolved resolved h
    obtain ⟨catalog, base, joins⟩ := stores.tables
    have mono {n : Expr} (h : Binds _ n) : t.Binds n :=
      h.mono catalog base (by rw [joins]; exact List.Subset.refl _)
    refine ⟨keeps.toJoined.of_tables catalog base joins, stores.throughout ?_ ?_ ?_ ?_⟩
    · intro _ _ _ _ _ _ eq
      cases eq
    · intro _ _ _ _ _ _ eq
      cases eq
    · exact fun e mem n within => mono (keeps.columns e mem n within)
    · exact fun r mem n within => mono (bound r mem n within)

/-- The query for all rows of a table is scoped. -/
lemma scoped_ofTable {c : Catalog} {name : String} (built : c.Built)
    (base : ofTable c name = .ok s) : s.Scoped := by
  obtain ⟨table, rfl⟩ := eq_of_ofTable base
  exact ⟨⟨built, List.nodup_singleton _, by simp, by simp⟩, by simp [stored]⟩

/-- The base table is one of the catalog. -/
lemma registered_ofTable {c : Catalog} {name : String} (built : c.Built)
    (base : ofTable c name = .ok s) : s.catalog.table? s.table.name = some s.table := by
  rw [ofTable] at base
  split at base
  · rename_i table found
    cases base
    show c.table? table.name = some table
    rw [built.name_eq found, found]
  · cases base

/-- The joins of a query follow each other after any operations, whatever these are given. -/
theorem joined_after {c : Catalog} {name : String} (built : c.Built) (base : ofTable c name = .ok s)
    (operations : List Operation) : (s.after operations).Joined :=
  after_tables Joined.of_tables (fun _ _ path _ h => h.resolveField path)
    (scoped_ofTable built base).toJoined

/-- The columns that a scoped query selects are bound, also when these are all of the base table. -/
lemma Scoped.selectList (h : s.Scoped) : ∀ e ∈ s.selectList, e.Throughout s.Binds := by
  apply throughout_selectList h.columns
  intro column mem _ _ _ eq
  cases eq
  exact ⟨s.table, .base, column, mem, rfl⟩

/-- A query is scoped after any operations, whether they succeed or fail, as long as what they are
given has no columns and references of its own. -/
theorem scoped_after {c : Catalog} {name : String} (built : c.Built) (base : ofTable c name = .ok s)
    (operations : List Operation)
    (unbound : ∀ operation ∈ operations, ∀ e ∈ operation.trees,
      e.Throughout fun n => n.isColumn = false ∧ n.isRef = false) :
    (s.after operations).Scoped ∧
      ∀ e ∈ (s.after operations).selectList, e.Throughout (s.after operations).Binds := by
  have keeps : (s.after operations).Scoped :=
    after_induction unbound (fun h step => step.scoped h) (scoped_ofTable built base)
  exact ⟨keeps, keeps.selectList⟩

/-- Operations that follow the relation of the table to itself, the last one in vain. -/
def superiors : List Operation :=
  [.annotate "chief" (.field "boss.boss.name"),
    .filter (.compare (.field "boss.name") .ne (.field "chief")),
    .orderBy [.field "boss.boss.boss.name", .field "boss.nothing.name"]]

/-- A table that is joined to itself again and again stays scoped. -/
theorem scoped_after_superiors :
    (allStaff.after superiors).aliases = ["T2", "T3", "T4", "T5"] ∧
      (allStaff.after superiors).Scoped := by
  have built : allStaff.catalog.Built := .add (t := staff) .empty rfl
  refine ⟨?_, (scoped_after built ofTable_allStaff superiors (by decide)).1⟩
  decide

end BoundSql.Select
