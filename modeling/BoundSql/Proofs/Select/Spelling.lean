import BoundSql.Proofs.Select.Propagation

/-!
# Columns spell their paths

A path can be resolved when its segments name relations of the catalog, each of the table that the one
before it points at, and a field of the last table. What it resolves to is a column at the end of a
route of joins, one for each relation. The joins that a query has already come first on the route: a
join that is new has a fresh alias, from which no join starts, so that all later joins are new as well
(`Walk.chain`). They are all that is added (`column_spells_path`).
-/

namespace BoundSql

/-- The segments name relations, each of the table that the one before it points at, and lead from a
table to a table of the catalog. -/
inductive Catalog.Reaches (c : Catalog) : Table → List String → Table → Prop where
  | stop (table) : Reaches c table [] table
  | cross {table segment column relation target hops last} :
      table.column? segment = some column → column.relation = some relation →
      c.table? relation.table = some target → Reaches c target hops last →
      Reaches c table (segment :: hops) last

namespace Select

/-- No join starts from the alias. -/
def IsLeaf (s : Select) (tableAlias : String) : Prop :=
  ∀ j ∈ s.joins, j.parent ≠ tableAlias

open Select.Action

variable {mode : Resolution} {path : String} {hops : List String} {c : Catalog}
  {table lastTable : Table} {j : Join} {added : List Join} {s t : Select} {place last : Place}
  {r : Expr}

/-! ### The walk over the catalog -/

/-- A walk follows the relations of the catalog. -/
lemma Walk.reaches (walk : Walk mode s place hops t last) :
    s.catalog.Reaches place.table hops last.table := by
  induction walk with
  | stop => exact .stop _
  | cross crosses _ ih =>
    obtain ⟨_, rfl⟩ := crosses.grown
    cases crosses with
    | relation isField isRelation _ isTable _ => exact .cross isField isRelation isTable ih

/-- Relations of the catalog can be walked along in every query, where they may be crossed. -/
lemma exists_walk (reaches : c.Reaches table hops lastTable) (allowed : mode.allowJoins = true)
    (catalog : s.catalog = c) (start : place.table = table) :
    ∃ t last, Walk mode s place hops t last ∧ last.table = lastTable := by
  induction reaches generalizing s place with
  | stop => exact ⟨s, place, .stop, start⟩
  | @cross _ segment column relation target _ _ isField isRelation isTable _ ih =>
    subst start catalog
    obtain ⟨tableAlias, t, joined, grown⟩ := join_on mode (joinFrom place column relation target) s
    obtain ⟨next, crosses, same⟩ : ∃ next, Crosses mode s place segment t next ∧ next.table = target :=
      ⟨_, .relation isField isRelation allowed isTable joined, rfl⟩
    obtain ⟨u, last, walk, arrived⟩ := ih grown.extends.catalog same
    exact ⟨u, last, .cross crosses walk, arrived⟩

/-- A path whose first segment is no computed column resolves to the field that it was walked to. -/
lemma exists_walk_of_ok (unhidden : s.computed.find? (·.1 == (FieldPath.ofString path).first) = none)
    (run : (resolveField mode path).on s = (.ok r, t)) :
    ∃ place column, r = .column place.tableAlias column.store (some column.type) ∧
      Walk mode s s.start (FieldPath.ofString path).hops t place ∧
      place.table.column? (FieldPath.ofString path).last = some column := by
  rcases resolveField_cases mode path s with
    ⟨_, _, -, found, -⟩ | ⟨place, column, _, run', -, walk, isField⟩ | ⟨_, _, _, _, run', -⟩
  · cases unhidden.symm.trans found
  · cases run'.symm.trans run
    exact ⟨place, column, rfl, walk, isField⟩
  · cases run'.symm.trans run

/-- A path can be resolved exactly when the catalog can be walked along it, and only a path without
relations where none may be crossed. -/
lemma resolveField_ok_iff (unhidden : s.computed.find? (·.1 == (FieldPath.ofString path).first) = none) :
    (∃ r t, (resolveField mode path).on s = (.ok r, t)) ↔
      ((FieldPath.ofString path).hops = [] ∨ mode.allowJoins = true) ∧
        ∃ table column, s.catalog.Reaches s.table (FieldPath.ofString path).hops table ∧
          table.column? (FieldPath.ofString path).last = some column := by
  constructor
  · rintro ⟨r, t, run⟩
    obtain ⟨place, column, -, walk, isField⟩ := exists_walk_of_ok unhidden run
    refine ⟨?_, place.table, column, walk.reaches, isField⟩
    cases allowed : mode.allowJoins with
    | true => exact .inr rfl
    | false => exact .inl (walk.of_forbidden allowed).1
  · rintro ⟨allowed, table, column, reaches, isField⟩
    have walks : ∃ t place, Walk mode s s.start (FieldPath.ofString path).hops t place ∧
        place.table = table := by
      rcases allowed with noHop | allowed
      · rw [noHop] at reaches ⊢
        cases reaches
        exact ⟨s, s.start, .stop, rfl⟩
      · exact exists_walk reaches allowed rfl rfl
    obtain ⟨t, place, walk, rfl⟩ := walks
    exact ⟨_, t, on_resolveField_of_walk unhidden walk isField⟩

/-! ### The joins on the way -/

/-- The aliases of joins that were added are new. -/
lemma Joined.alias_not_mem (h : Joined { s with joins := s.joins ++ added }) (mem : j ∈ added) :
    j.tableAlias ∉ s.aliases := by
  have distinct : (s.aliases ++ added.map (·.tableAlias)).Nodup := by
    have distinct := h.aliases
    rwa [Select.aliases, List.map_append, ← List.cons_append] at distinct
  intro old
  exact List.disjoint_of_nodup_append distinct old (List.mem_map_of_mem mem)

/-- No join starts from the alias of the last join. -/
lemma Joined.isLeaf_last (h : Joined { s with joins := s.joins ++ [j] }) :
    IsLeaf { s with joins := s.joins ++ [j] } j.tableAlias := by
  intro k mem same
  obtain ⟨front, back, eq⟩ := List.append_of_mem mem
  have start : front ++ [k] <+: s.joins ++ [j] :=
    ⟨back, (List.append_assoc front [k] back).trans eq.symm⟩
  -- the joins before it were there before the last one
  have old : front ⊆ s.joins := by
    rcases List.prefix_concat_iff.1 start with whole | before
    · rw [(List.append_inj' whole rfl).1]
      exact List.Subset.refl _
    · exact List.Subset.trans (List.subset_append_left front [k]) before.subset
  have parent : k.parent ∈ s.aliases :=
    List.cons_subset_cons _ (List.map_subset _ old) (h.parents front k back eq)
  rw [same] at parent
  exact h.alias_not_mem (List.mem_singleton_self j) parent

/-- The joins of a walk are first joins that were there, and may be shared, and then the joins that are
added to the query. Where no join started from, all of them are added. -/
lemma Walk.chain (walk : Walk mode s place hops t last) (h : s.Joined)
    (names : s.Names place.tableAlias place.table) :
    ∃ shared added links,
      t.Route place.tableAlias place.table hops links last.tableAlias last.table ∧
      links.map (·.2) = shared ++ added ∧ t = { s with joins := s.joins ++ added } ∧
      (∀ j ∈ shared, j ∈ s.joins ∧ mode.mayReuse j = true) ∧
      (s.IsLeaf place.tableAlias → shared = []) := by
  induction walk with
  | stop => exact ⟨[], [], [], .stop _ _, rfl, by simp, by simp, fun _ => rfl⟩
  | cross crosses walk ih =>
    obtain ⟨h', names'⟩ := crosses.joined h names
    obtain ⟨shared, added, links, route, split, grown, old, fresh⟩ := ih h' names'
    obtain ⟨column, j, link, same, -, kind⟩ := crosses.link h
    rw [← same] at route fresh
    have route := Route.cross (link.mono walk.grown.extends) route
    rcases kind with ⟨rfl, reused⟩ | rfl
    · refine ⟨j :: shared, added, _, route, congrArg (j :: ·) split, grown, ?_, fun leaf => ?_⟩
      · exact List.forall_mem_cons.2 ⟨⟨link.mem, reused⟩, old⟩
      · exact absurd link.parent (leaf j link.mem)
    · -- nothing starts from the new join yet, so that the joins after it are new as well
      obtain rfl := fresh h'.isLeaf_last
      refine ⟨[], j :: added, _, route, congrArg (j :: ·) split, ?_, by simp, fun _ => rfl⟩
      rw [grown, List.append_assoc]
      rfl

/-- A join may be used again unless its alias is left out of a list of those that may. -/
lemma mayReuse_eq_true_iff :
    mode.mayReuse j = true ↔ ∀ aliases, mode.reuse = some aliases → j.tableAlias ∈ aliases := by
  rw [Resolution.mayReuse]
  cases mode.reuse with
  | none => simp
  | some aliases => simp

/-- In a query over a catalog that was built, after any operations, a path whose first segment is no
computed column can be resolved exactly when its segments name relations of the catalog that lead to a
table with the last segment as a field, and relations may be crossed if there are any. It is resolved to
the column and type of the field, under the alias that a route of joins from the base table ends with.
The joins of the route are first joins that were there and may be shared, and then new ones under new
aliases, which are all that is added to the query. A path that may not cross its relations is refused,
and the query stays as it is. -/
theorem column_spells_path {c : Catalog} {name : String} (built : c.Built)
    (base : ofTable c name = .ok s) (operations : List Operation) (mode : Resolution) (path : String)
    (unhidden : ∀ named ∈ (s.after operations).computed,
      named.1 ≠ (FieldPath.ofString path).first) :
    let u := s.after operations
    let p := FieldPath.ofString path
    ((∃ r t, (resolveField mode path).on u = (.ok r, t)) ↔
      (p.hops = [] ∨ mode.allowJoins = true) ∧
        ∃ table column, c.Reaches u.table p.hops table ∧ table.column? p.last = some column) ∧
    (∀ r t, (resolveField mode path).on u = (.ok r, t) →
      ∃ shared added links tableAlias table column,
        r = .column tableAlias column.store (some column.type) ∧
        table.column? p.last = some column ∧
        t.Route u.baseAlias u.table p.hops links tableAlias table ∧
        links.map (·.2) = shared ++ added ∧ t = { u with joins := u.joins ++ added } ∧
        (∀ j ∈ shared, j ∈ u.joins ∧
          ∀ aliases, mode.reuse = some aliases → j.tableAlias ∈ aliases) ∧
        ∀ j ∈ added, j.tableAlias ∉ u.aliases) ∧
    (p.hops ≠ [] → mode.allowJoins = false →
      ∃ x, (resolveField mode path).on u = (.error x, u)) := by
  intro u p
  have joined : u.Joined := joined_after built base operations
  have catalog : u.catalog = c := by
    rw [(after_extends operations s).catalog]
    obtain ⟨table, rfl⟩ := eq_of_ofTable base
    rfl
  have unhidden : u.computed.find? (·.1 == p.first) = none :=
    List.find?_eq_none.2 fun named mem same => unhidden named mem (eq_of_beq same)
  refine ⟨?_, fun r t run => ?_, fun hops forbidden => ?_⟩
  · rw [← catalog]
    exact resolveField_ok_iff unhidden
  · obtain ⟨place, column, rfl, walk, isField⟩ := exists_walk_of_ok unhidden run
    obtain ⟨shared, added, links, route, split, grown, old, -⟩ := walk.chain joined .base
    have joined' := (walk.joined joined .base).1
    rw [grown] at joined'
    refine ⟨shared, added, links, _, _, column, rfl, isField, route, split, grown, fun j mem => ?_,
      fun j mem => joined'.alias_not_mem mem⟩
    exact (old j mem).imp_right mayReuse_eq_true_iff.1
  · have still := resolveField_of_forbidden forbidden path u
    rcases on_cases (resolveField mode path) u with ⟨r, t, run⟩ | ⟨x, t, run⟩
    · obtain ⟨place, column, -, walk, -⟩ := exists_walk_of_ok unhidden run
      exact absurd (walk.of_forbidden forbidden).1 hops
    · rw [run] at still ⊢
      exact ⟨x, Prod.ext rfl still⟩

/-- Of the joins to superiors and theirs only the first one may be shared, so that the next
two are new. -/
theorem column_spells_path_rejoined :
    ∃ t shared added links table,
      (resolveField { reuse := some ["T3"] } "boss.boss.boss.pay").on (allStaff.after rejoined) =
        (.ok (.column "T6" "pay" (some .integer)), t) ∧
      t.Route "T2" staff ["boss", "boss", "boss"] links "T6" table ∧
      links.map (·.2) = shared ++ added ∧ (∀ j ∈ shared, j.tableAlias = "T3") ∧
      added.map (·.tableAlias) = ["T5", "T6"] := by
  obtain ⟨t, run, aliases⟩ : ∃ t,
      (resolveField { reuse := some ["T3"] } "boss.boss.boss.pay").on (allStaff.after rejoined) =
        (.ok (.column "T6" "pay" (some .integer)), t) ∧
      t.joins.map (·.tableAlias) =
        (allStaff.after rejoined).joins.map (·.tableAlias) ++ ["T5", "T6"] :=
    ⟨((resolveField { reuse := some ["T3"] } "boss.boss.boss.pay").on (allStaff.after rejoined)).2,
      Prod.ext rfl rfl, by decide⟩
  have built : allStaff.catalog.Built := .add (t := staff) .empty rfl
  obtain ⟨-, spelled, -⟩ := column_spells_path built ofTable_allStaff rejoined
    { reuse := some ["T3"] } "boss.boss.boss.pay" (by decide)
  obtain ⟨shared, added, links, _, table, column, eq, -, route, split, grown, old, -⟩ := spelled _ t run
  obtain ⟨rfl, -, -⟩ := Expr.column.inj eq
  refine ⟨t, shared, added, links, table, run, route, split, fun j mem => ?_, ?_⟩
  · exact List.mem_singleton.1 ((old j mem).2 ["T3"] rfl)
  · rw [grown, List.map_append] at aliases
    exact List.append_cancel_left aliases

end Select

end BoundSql
