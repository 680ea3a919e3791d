import BoundSql.Proofs.Select.Scoping
import BoundSql.Proofs.Select.Stability

/-!
# Outer joins propagate

The invariant is `Propagated`: each join follows a relation of the table it starts from, and is outer
exactly when the relation may be missing or the join that it starts from is outer. A join that is
shared may have been made for another relation, so this takes a coherent catalog, in which relations
that share a join may be missing alike. A `Route` is a path in terms of the joins that it takes; which
of them are outer is read off its relations (`Route.kind_iff`).
-/

namespace BoundSql.Select

/-- The alias is that of an outer join. -/
def IsOuter (s : Select) (tableAlias : String) : Prop :=
  ∃ k ∈ s.joins, k.tableAlias = tableAlias ∧ k.kind = .leftOuter

/-- The join follows a relation of a table, and keeps the rows without a partner exactly when there may
be any: for want of the relation, or of the row that it starts from. -/
structure Propagates (s : Select) (table : Table) (column : Column) (j : Join) : Prop where
  names : s.Names j.parent table
  mem : column ∈ table.columns
  relation : column.relation = some ⟨j.table, j.targetColumn⟩
  store : column.store = j.parentColumn
  kind_iff : j.kind = .leftOuter ↔ s.IsOuter j.parent ∨ column.nullable = true

/-- The joins follow each other, and are outer exactly where they have to be. -/
structure Propagated (s : Select) : Prop extends Joined s where
  coherent : s.catalog.Coherent
  base : s.catalog.table? s.table.name = some s.table
  propagates : ∀ j ∈ s.joins, ∃ table column, s.Propagates table column j

/-- A segment of a path, at a table under an alias, takes the join over the column to the target. -/
structure Link (s : Select) (tableAlias : String) (table : Table) (segment : String)
    (column : Column) (j : Join) (target : Table) : Prop where
  isField : table.column? segment = some column
  relation : column.relation = some ⟨j.table, j.targetColumn⟩
  mem : j ∈ s.joins
  parent : j.parent = tableAlias
  store : column.store = j.parentColumn
  found : s.catalog.table? j.table = some target
  joined : j.store = target.store

/-- The segments of a path lead from a table to a table, over the columns and joins of the links. -/
inductive Route (s : Select) : String → Table → List String → List (Column × Join) → String → Table →
    Prop where
  | stop (tableAlias table) : Route s tableAlias table [] [] tableAlias table
  | cross {tableAlias table segment hops column j links target lastAlias last} :
      Link s tableAlias table segment column j target →
      Route s j.tableAlias target hops links lastAlias last →
      Route s tableAlias table (segment :: hops) ((column, j) :: links) lastAlias last

open Select.Action

variable {mode : Resolution} {path segment tableAlias : String} {table target : Table}
  {column : Column} {j k : Join} {s t : Select} {place next last : Place}

/-- An alias belongs to one join. -/
lemma Joined.eq_of_alias_eq (h : s.Joined) (mem : j ∈ s.joins) (mem' : k ∈ s.joins)
    (same : j.tableAlias = k.tableAlias) : j = k :=
  List.inj_on_of_nodup_map (List.nodup_cons.1 h.aliases).2 mem mem' same

/-- No join has the alias of the base table. -/
lemma Joined.alias_ne_base (h : s.Joined) (mem : j ∈ s.joins) : j.tableAlias ≠ s.baseAlias := by
  intro same
  apply (List.nodup_cons.1 h.aliases).1
  rw [← same]
  exact List.mem_map_of_mem mem

/-- An alias stands for one table. -/
lemma Names.unique (h : s.Joined) (names : s.Names tableAlias table)
    (names' : s.Names tableAlias target) : table = target := by
  generalize eq : tableAlias = other at names'
  cases names with
  | base =>
    cases names' with
    | base => rfl
    | joined mem => exact absurd eq.symm (h.alias_ne_base mem)
  | joined mem found =>
    cases names' with
    | base => exact absurd eq (h.alias_ne_base mem)
    | joined mem' found' =>
      obtain rfl := h.eq_of_alias_eq mem mem' eq
      exact Option.some.inj (found.symm.trans found')

/-- The alias of a join is outer just when the join keeps the rows without a partner. -/
lemma Joined.isOuter_iff (h : s.Joined) (mem : j ∈ s.joins) :
    s.IsOuter j.tableAlias ↔ j.kind = .leftOuter := by
  constructor
  · rintro ⟨k, mem', same, outer⟩
    rwa [h.eq_of_alias_eq mem mem' same.symm]
  · intro outer
    exact ⟨j, mem, rfl, outer⟩

/-- The alias of the base table is not outer. -/
lemma Joined.not_isOuter_base (h : s.Joined) : ¬ s.IsOuter s.baseAlias := by
  rintro ⟨k, mem, same, -⟩
  exact h.alias_ne_base mem same

/-- A new join says nothing of the aliases that were there. -/
lemma isOuter_addJoin (j : Join) (mem : tableAlias ∈ s.aliases) :
    (s.addJoin j).IsOuter tableAlias ↔ s.IsOuter tableAlias := by
  constructor
  · rintro ⟨k, joined, rfl, outer⟩
    rcases List.mem_append.1 joined with old | new
    · exact ⟨k, old, rfl, outer⟩
    · obtain rfl := List.mem_singleton.1 new
      exact absurd mem (s.freshAlias_not_mem j.store)
  · rintro ⟨k, joined, rfl, outer⟩
    exact ⟨k, List.mem_append_left _ joined, rfl, outer⟩

/-- A join that is added leaves the kinds of those before it right. -/
lemma Propagates.addJoin (h : s.Propagates table column k) (j : Join) :
    (s.addJoin j).Propagates table column k where
  names := h.names.mono rfl rfl (List.subset_append_left _ _)
  mem := h.mem
  relation := h.relation
  store := h.store
  kind_iff := by
    rw [isOuter_addJoin j h.names.mem_aliases]
    exact h.kind_iff

/-- Every alias stands for a table of the catalog. -/
lemma Propagated.exists_table? (h : s.Propagated) (names : s.Names tableAlias table) :
    ∃ name, s.catalog.table? name = some table :=
  names.exists_table? h.base

/-- The join that a segment takes is outer when its own relation may be missing, or those before it. -/
lemma Link.kind_iff (link : s.Link tableAlias table segment column j target) (h : s.Propagated)
    (names : s.Names tableAlias table) :
    j.kind = .leftOuter ↔ s.IsOuter tableAlias ∨ column.nullable = true := by
  obtain ⟨table', column', propagates⟩ := h.propagates j link.mem
  have names' := propagates.names
  rw [link.parent] at names'
  obtain rfl := names.unique h.toJoined names'
  obtain ⟨name, found⟩ := h.exists_table? names
  -- the join may have been made for another relation of the table
  have nullable : column'.nullable = column.nullable :=
    h.coherent found column' propagates.mem column (List.mem_of_find?_eq_some link.isField)
      (by rw [propagates.relation]; rfl) (propagates.relation.trans link.relation.symm)
      (propagates.store.trans link.store.symm)
  rw [propagates.kind_iff, link.parent, nullable]

/-- The alias of a link stands for its target. -/
lemma Link.names (link : s.Link tableAlias table segment column j target) :
    s.Names j.tableAlias target :=
  .joined link.mem link.found link.joined

/-- A link lasts as the query is extended. -/
lemma Link.mono (link : s.Link tableAlias table segment column j target) (later : s.Extends t) :
    t.Link tableAlias table segment column j target where
  isField := link.isField
  relation := link.relation
  mem := later.joins.subset link.mem
  parent := link.parent
  store := link.store
  found := by
    rw [later.catalog]
    exact link.found
  joined := link.joined

variable {hops : List String} {links : List (Column × Join)} {lastAlias : String} {lastTable : Table}

/-- A route lasts as the query is extended. -/
lemma Route.mono (route : s.Route tableAlias table hops links lastAlias lastTable)
    (later : s.Extends t) : t.Route tableAlias table hops links lastAlias lastTable := by
  induction route with
  | stop => exact .stop _ _
  | cross link _ ih => exact .cross (link.mono later) ih

/-- The joins of a route are outer from the first relation on that may be missing. -/
theorem Route.kind_iff (route : s.Route tableAlias table hops links lastAlias lastTable)
    (h : s.Propagated) (names : s.Names tableAlias table) {front back : List (Column × Join)}
    {link : Column × Join} (split : links = front ++ link :: back) :
    link.2.kind = .leftOuter ↔
      s.IsOuter tableAlias ∨ ∃ l ∈ front ++ [link], l.1.nullable = true := by
  induction route generalizing front with
  | stop =>
    cases front <;> cases split
  | @cross _ _ _ _ column j links _ _ _ first _ ih =>
    have kind := first.kind_iff h names
    cases front with
    | nil =>
      cases split
      simpa using kind
    | cons l front =>
      obtain ⟨rfl, rest⟩ := List.cons.inj split
      rw [ih first.names rest, h.isOuter_iff first.mem, kind, or_assoc, List.cons_append,
        List.exists_mem_cons_iff]

/-- A path has come to a table, and knows whether there may be no row of it. -/
structure At (s : Select) (place : Place) : Prop where
  names : s.Names place.tableAlias place.table
  nullable : place.nullable = true ↔ s.IsOuter place.tableAlias

/-- Every path starts at the base table. -/
lemma Propagated.at_start (h : s.Propagated) : s.At s.start where
  names := .base
  nullable := iff_of_false Bool.false_ne_true h.not_isOuter_base

/-- The join from a place is outer when there may be no row of the place, or none of the target. -/
lemma joinFrom_kind_iff (place : Place) (column : Column) (relation : Relation) (target : Table) :
    (joinFrom place column relation target).kind = .leftOuter ↔
      place.nullable = true ∨ column.nullable = true := by
  rw [joinFrom]
  cases place.nullable <;> cases column.nullable <;> simp

/-- A segment that is crossed takes a join, which was there and may be shared, or is new. -/
lemma Crosses.link (crosses : Crosses mode s place segment t next) (h : s.Joined) :
    ∃ column j, t.Link place.tableAlias place.table segment column j next.table ∧
      j.tableAlias = next.tableAlias ∧ next.nullable = (place.nullable || column.nullable) ∧
      (t = s ∧ mode.mayReuse j = true ∨ t = { s with joins := s.joins ++ [j] }) := by
  cases crosses with
  | @relation column relation target tableAlias isField isRelation _ isTable run =>
    have name := h.built.name_eq isTable
    rcases join_cases mode (joinFrom place column relation target) s with ⟨k, shared, run'⟩ | ⟨-, run'⟩
    · cases run'.symm.trans run
      have mem := List.mem_of_find?_eq_some shared
      have same := List.find?_some shared
      simp only [Join.isEquivalent, joinFrom, Bool.and_eq_true, beq_iff_eq] at same
      obtain ⟨⟨⟨⟨table, parent⟩, parentColumn⟩, targetColumn⟩, reused⟩ := same
      -- a join that is shared leads to the table of the relation, since the catalog has one of the name
      obtain ⟨target', found, store⟩ := h.tables k mem
      have target_eq : target' = target := by
        rw [table, name, isTable] at found
        exact (Option.some.inj found).symm
      refine ⟨column, k, ⟨isField, ?_, mem, parent, parentColumn.symm, ?_, ?_⟩, rfl, rfl,
        .inl ⟨rfl, reused⟩⟩
      · rw [isRelation, table, name, targetColumn]
      · rw [found, target_eq]
      · rw [store, target_eq]
    · cases run'.symm.trans run
      refine ⟨column, _, ⟨isField, ?_, List.mem_append_right _ (List.mem_singleton_self _), rfl, rfl, ?_,
        rfl⟩, rfl, rfl, .inr rfl⟩
      · exact relation_joinFrom h.built isRelation isTable place
      · show s.catalog.table? target.name = _
        rw [name, isTable]

/-- The joins propagate after a relation was crossed, and those that were there are as they were. -/
lemma Crosses.propagated (crosses : Crosses mode s place segment t next) (h : s.Propagated)
    (start : s.At place) : t.Propagated ∧ t.At place := by
  have joined := (crosses.joined h.toJoined start.names).1
  cases crosses with
  | @relation column relation target tableAlias isField isRelation _ isTable run =>
    rcases join_cases mode (joinFrom place column relation target) s with ⟨k, -, run'⟩ | ⟨-, run'⟩
    · cases run'.symm.trans run
      exact ⟨h, start⟩
    · cases run'.symm.trans run
      have old := isOuter_addJoin (joinFrom place column relation target) start.names.mem_aliases
      have names : (s.addJoin (joinFrom place column relation target)).Names place.tableAlias _ :=
        start.names.mono rfl rfl (List.subset_append_left _ _)
      refine ⟨⟨joined, h.coherent, h.base, fun k mem => ?_⟩, names, start.nullable.trans old.symm⟩
      rcases List.mem_append.1 mem with mem | mem
      · obtain ⟨table, column, propagates⟩ := h.propagates k mem
        exact ⟨table, column, propagates.addJoin _⟩
      · obtain rfl := List.mem_singleton.1 mem
        refine ⟨place.table, column, names, List.mem_of_find?_eq_some isField,
          relation_joinFrom h.built isRelation isTable place, rfl, ?_⟩
        show (joinFrom place column relation target).kind = _ ↔ _
        rw [joinFrom_kind_iff, start.nullable]
        exact or_congr_left old.symm

/-- Crossing a relation knows whether there may be no row behind it. -/
lemma Crosses.at_next (crosses : Crosses mode s place segment t next) (h : s.Propagated)
    (start : s.At place) : t.At next := by
  obtain ⟨propagated, start'⟩ := crosses.propagated h start
  obtain ⟨column, j, link, same, nullable, -⟩ := crosses.link h.toJoined
  refine ⟨same ▸ link.names, ?_⟩
  rw [nullable, Bool.or_eq_true, start'.nullable, ← link.kind_iff propagated start'.names, ← same,
    propagated.isOuter_iff link.mem]

/-- A walk keeps the joins propagating, and is a route in the query that it leads to. -/
lemma Walk.propagated {hops : List String} (walk : Walk mode s place hops t last) (h : s.Propagated)
    (start : s.At place) : t.Propagated ∧
      ∃ links, t.Route place.tableAlias place.table hops links last.tableAlias last.table := by
  induction walk with
  | stop => exact ⟨h, [], .stop _ _⟩
  | cross crosses walk ih =>
    obtain ⟨propagated, links, route⟩ := ih (crosses.propagated h start).1 (crosses.at_next h start)
    obtain ⟨column, j, link, same, -⟩ := crosses.link h.toJoined
    rw [← same] at route
    exact ⟨propagated, _, .cross (link.mono walk.grown.extends) route⟩

/-- Resolving a path adds joins that are outer exactly where they have to be. -/
lemma Propagated.resolveField (h : s.Propagated) (mode : Resolution) (path : String) :
    ((resolveField mode path).on s).2.Propagated := by
  rcases resolveField_cases mode path s with
    ⟨_, _, run, -⟩ | ⟨_, _, t, run, -, walk, -⟩ | ⟨_, _, _, t, run, -, walk⟩
  · rw [run]
    exact h
  · rw [run]
    exact (walk.propagated h h.at_start).1
  · rw [run]
    exact (walk.propagated h h.at_start).1

/-- A path that resolves to a column takes a route to its table. -/
lemma Propagated.exists_route {name : String} {type : Option SqlType} (h : s.Propagated)
    (run : (Select.resolveField mode path).on s = (.ok (.column tableAlias name type), t)) :
    ∃ links table, t.Route t.baseAlias t.table (FieldPath.ofString path).hops links tableAlias table := by
  rcases resolveField_cases mode path s with
    ⟨_, _, run', -⟩ | ⟨place, column, t', run', -, walk, -⟩ | ⟨_, _, _, _, run', -⟩
  · cases run'.symm.trans run
  · cases run'.symm.trans run
    obtain ⟨-, links, route⟩ := walk.propagated h h.at_start
    have base : t.table = s.table := walk.grown.extends.table
    rw [baseAlias, base]
    exact ⟨links, _, route⟩
  · cases run'.symm.trans run

/-- The kinds of the joins are right by the catalog, the table and the joins alone. -/
lemma Propagated.of_tables (h : s.Propagated) (catalog : t.catalog = s.catalog)
    (table : t.table = s.table) (joins : t.joins = s.joins) : t.Propagated := by
  have names {tableAlias table'} (names : s.Names tableAlias table') : t.Names tableAlias table' :=
    names.mono catalog table (joins ▸ List.Subset.refl _)
  have outer (tableAlias : String) : t.IsOuter tableAlias ↔ s.IsOuter tableAlias := by
    rw [IsOuter, IsOuter, joins]
  refine ⟨h.toJoined.of_tables catalog table joins, ?_, ?_, fun j mem => ?_⟩
  · rw [catalog]
    exact h.coherent
  · rw [catalog, table]
    exact h.base
  · rw [joins] at mem
    obtain ⟨table', column, propagates⟩ := h.propagates j mem
    refine ⟨table', column, names propagates.names, propagates.mem, propagates.relation,
      propagates.store, ?_⟩
    rw [outer]
    exact propagates.kind_iff

/-- A new query has no joins that could be of the wrong kind. -/
lemma propagated_ofTable {c : Catalog} {name : String} (built : c.Built) (coherent : c.Coherent)
    (base : ofTable c name = .ok s) : s.Propagated := by
  have start := (scoped_ofTable built base).toJoined
  have registered := registered_ofTable built base
  obtain ⟨table, rfl⟩ := eq_of_ofTable base
  exact ⟨start, coherent, registered, fun _ mem => absurd mem List.not_mem_nil⟩

/-- Outer joins propagate in a coherent catalog, after any operations. -/
theorem propagated_after {c : Catalog} {name : String} (built : c.Built) (coherent : c.Coherent)
    (base : ofTable c name = .ok s) (operations : List Operation) :
    (s.after operations).Propagated :=
  after_tables Propagated.of_tables (fun operation _ path _ h => h.resolveField operation.mode path)
    (propagated_ofTable built coherent base)

end BoundSql.Select
