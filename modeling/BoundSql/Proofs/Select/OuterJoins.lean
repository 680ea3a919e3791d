import BoundSql.Proofs.Select.Propagation
import Mathlib.Data.List.Induction
import Mathlib.Logic.Function.Basic

/-!
# Optional relations drop no rows

What the joins of a query do to rows. A `Tuple` has one row under each alias, or none where an outer
join found no partner; `Select.tuples` are the tuples of a query over a database. When all relations
that may not be missing have a partner in the database, every row of the base table is in a tuple,
since an inner join starts only from rows that are there (`outer_joins_propagate`).
-/

namespace BoundSql

/-- A row by the columns that store it, with none for NULL. -/
abbrev Row (κ : Type) := String → Option κ

/-- The rows of each table of the store. -/
abbrev Database (κ : Type) := String → List (Row κ)

/-- The rows under the aliases of a query. -/
abbrev Tuple (κ : Type) := String → Option (Row κ)

variable {κ : Type} [DecidableEq κ]

/-- Each row of a table of the catalog has a partner for each relation that may not be missing. -/
def Database.Complete (db : Database κ) (c : Catalog) : Prop :=
  ∀ {name table column relation target}, c.table? name = some table → column ∈ table.columns →
    column.relation = some relation → column.nullable = false →
    c.table? relation.table = some target → ∀ row ∈ db table.store,
    ∃ key, row column.store = some key ∧ ∃ r ∈ db target.store, r relation.column = some key

/-- The rows that a join finds for a tuple. NULL has no partners. -/
def Join.partners (db : Database κ) (j : Join) (tuple : Tuple κ) : List (Row κ) :=
  match (tuple j.parent).bind (· j.parentColumn) with
  | none => []
  | some key => (db j.store).filter (· j.targetColumn = some key)

/-- The tuples that a join makes of one: one for each partner, and else one without if it is outer. -/
def Join.extend (db : Database κ) (j : Join) (tuple : Tuple κ) : List (Tuple κ) :=
  match j.partners db tuple, j.kind with
  | [], .inner => []
  | [], .leftOuter => [Function.update tuple j.tableAlias none]
  | rows, _ => rows.map fun row => Function.update tuple j.tableAlias (some row)

namespace Select

/-- The tuples of the base table and of joins from it. -/
def tuplesOf (db : Database κ) (s : Select) (joins : List Join) : List (Tuple κ) :=
  joins.foldl (fun tuples j => tuples.flatMap (j.extend db))
    ((db s.table.store).map fun row => Function.update (fun _ => none) s.baseAlias (some row))

/-- The tuples that a query selects from. -/
def tuples (db : Database κ) (s : Select) : List (Tuple κ) :=
  s.tuplesOf db s.joins

open Select.Action

variable {s : Select} {db : Database κ} {j : Join} {tuple : Tuple κ} {row : Row κ}

/-- The partners of a row are the rows of the joined table with its key. -/
lemma mem_partners {r : Row κ} {key : κ} (there : tuple j.parent = some row)
    (start : row j.parentColumn = some key) :
    r ∈ j.partners db tuple ↔ r ∈ db j.store ∧ r j.targetColumn = some key := by
  simp [Join.partners, there, start]

/-- Every partner is a row of the joined table. -/
lemma mem_of_mem_partners {r : Row κ} (mem : r ∈ j.partners db tuple) : r ∈ db j.store := by
  rw [Join.partners] at mem
  split at mem
  · cases mem
  · exact (List.mem_filter.1 mem).1

/-- A last join extends each tuple of those before it. -/
lemma tuplesOf_concat (db : Database κ) (s : Select) (joins : List Join) (j : Join) :
    s.tuplesOf db (joins ++ [j]) = (s.tuplesOf db joins).flatMap (j.extend db) := by
  rw [tuplesOf, List.foldl_append]
  rfl

/-- A join extends a tuple if it starts from a row that is there, or may find none. -/
lemma Propagated.exists_extend (h : s.Propagated) (complete : db.Complete s.catalog)
    (mem : j ∈ s.joins)
    (there : ∀ {table}, s.Names j.parent table → ¬ s.IsOuter j.parent →
      ∃ row ∈ db table.store, tuple j.parent = some row) :
    ∃ r, Function.update tuple j.tableAlias r ∈ j.extend db tuple ∧
      (j.kind = .inner → ∃ row ∈ db j.store, r = some row) := by
  rw [Join.extend]
  cases partners : j.partners db tuple with
  | cons row rows =>
    have found : row ∈ db j.store := mem_of_mem_partners (partners ▸ List.mem_cons_self)
    exact ⟨some row, List.mem_map_of_mem List.mem_cons_self, fun _ => ⟨row, found, rfl⟩⟩
  | nil =>
    cases kind : j.kind with
    | leftOuter => exact ⟨none, List.mem_singleton_self _, nofun⟩
    | inner =>
      -- the relation may not be missing, nor the row it starts from, so that there is a partner
      obtain ⟨table, column, propagates⟩ := h.propagates j mem
      have always := propagates.kind_iff.not.1 (by rw [kind]; nofun)
      rw [not_or, Bool.not_eq_true] at always
      obtain ⟨row, stored, bound⟩ := there propagates.names always.1
      obtain ⟨name, registered⟩ := h.exists_table? propagates.names
      obtain ⟨target, isTable, store⟩ := h.tables j mem
      obtain ⟨key, start, r, found, same⟩ :=
        complete registered propagates.mem propagates.relation always.2 isTable row stored
      rw [propagates.store] at start
      rw [← store] at found
      have partner := (mem_partners bound start).2 ⟨found, same⟩
      rw [partners] at partner
      cases partner

/-- Each row of the base table is kept by the first joins, with a row under each alias that is not
that of an outer join. -/
lemma Propagated.exists_tuple (h : s.Propagated) (complete : db.Complete s.catalog)
    (mem : row ∈ db s.table.store) {front back : List Join} (split : s.joins = front ++ back) :
    ∃ tuple ∈ s.tuplesOf db front, tuple s.baseAlias = some row ∧
      ∀ {tableAlias table}, tableAlias ∈ s.baseAlias :: front.map (·.tableAlias) →
        s.Names tableAlias table → ¬ s.IsOuter tableAlias →
        ∃ r ∈ db table.store, tuple tableAlias = some r := by
  -- joins come in one after another, each of them with the row that it starts from there already
  induction front using List.reverseRecOn generalizing back with
  | nil =>
    refine ⟨_, List.mem_map_of_mem mem, Function.update_self _ _ _, fun inFront names _ => ?_⟩
    obtain rfl := List.mem_singleton.1 inFront
    obtain rfl := names.unique h.toJoined .base
    exact ⟨row, mem, Function.update_self _ _ _⟩
  | append_singleton front j ih =>
    rw [List.append_assoc] at split
    obtain ⟨tuple, inTuples, base, there⟩ := ih split
    have joined : j ∈ s.joins := by
      rw [split]
      exact List.mem_append_right _ List.mem_cons_self
    have parent {table} (names : s.Names j.parent table) (inner : ¬ s.IsOuter j.parent) :
        ∃ r ∈ db table.store, tuple j.parent = some r :=
      there (h.parents front j back split) names inner
    obtain ⟨r, extended, found⟩ := h.exists_extend complete joined parent
    have others {tableAlias} (ne : tableAlias ≠ j.tableAlias) :
        Function.update tuple j.tableAlias r tableAlias = tuple tableAlias :=
      Function.update_of_ne ne _ _
    refine ⟨Function.update tuple j.tableAlias r, ?_, ?_, fun {tableAlias table} inFront names inner => ?_⟩
    · rw [tuplesOf_concat]
      exact List.mem_flatMap_of_mem inTuples extended
    · rw [others (h.alias_ne_base joined).symm, base]
    -- the new alias has the row that was found, and the others keep theirs
    · by_cases new : tableAlias = j.tableAlias
      · subst new
        rw [h.isOuter_iff joined] at inner
        have kind : j.kind = .inner := by
          cases kind : j.kind with
          | inner => rfl
          | leftOuter => exact absurd kind inner
        obtain ⟨r', stored, rfl⟩ := found kind
        obtain ⟨target, isTable, store⟩ := h.tables j joined
        obtain rfl := names.unique h.toJoined (.joined joined isTable store)
        exact ⟨r', store ▸ stored, Function.update_self _ _ _⟩
      · rw [others new]
        refine there ?_ names inner
        rw [List.map_append, ← List.cons_append, List.mem_append] at inFront
        exact inFront.resolve_right fun last => new (List.mem_singleton.1 last)

/-- After any operations in a coherent catalog, no inner join starts from an outer one, and the joins of
a path that was resolved are outer from the first relation on that may be missing. So no row of the
base table is dropped for want of a partner that may be missing. -/
theorem outer_joins_propagate {c : Catalog} {name : String} (built : c.Built) (coherent : c.Coherent)
    (base : ofTable c name = .ok s) (operations : List Operation) :
    let u := s.after operations
    (∀ j ∈ u.joins, ∀ k ∈ u.joins, j.parent = k.tableAlias → k.kind = .leftOuter →
      j.kind = .leftOuter) ∧
    (∀ {mode path tableAlias name type t},
      (resolveField mode path).on u = (.ok (.column tableAlias name type), t) →
      ∃ links table,
        (∀ later, (t.after later).Route s.baseAlias s.table (FieldPath.ofString path).hops links
          tableAlias table) ∧
        ∀ front link back, links = front ++ link :: back →
          (link.2.kind = .leftOuter ↔ ∃ l ∈ front ++ [link], l.1.nullable = true)) ∧
    ∀ {κ : Type} [DecidableEq κ] (db : Database κ), db.Complete c →
      ∀ row ∈ db s.table.store, ∃ tuple ∈ u.tuples db, tuple s.baseAlias = some row := by
  intro u
  have h : u.Propagated := propagated_after built coherent base operations
  have extended : s.Extends u := after_extends operations s
  have baseAlias_eq : u.baseAlias = s.baseAlias := by rw [baseAlias, baseAlias, extended.table]
  refine ⟨fun j mem k mem' parent outer => ?_, fun {mode path tableAlias name type t} run => ?_,
    fun {κ} _ db complete row mem => ?_⟩
  · obtain ⟨table, column, propagates⟩ := h.propagates j mem
    exact propagates.kind_iff.2 (.inl ⟨k, mem', parent.symm, outer⟩)
  · have propagated : t.Propagated := by
      have keeps := h.resolveField mode path
      rwa [run] at keeps
    obtain ⟨links, table, route⟩ := h.exists_route run
    refine ⟨links, table, fun later => ?_, fun front link back split => ?_⟩
    · have start : t.table = s.table := (resolveField_grown run).extends.table.trans extended.table
      rw [baseAlias, start] at route
      exact route.mono (after_extends later t)
    · rw [route.kind_iff propagated .base split, or_iff_right propagated.not_isOuter_base]
  -- the joins are outer where they have to be, and so none of them drops the row
  · obtain ⟨table, rfl⟩ := eq_of_ofTable base
    rw [← extended.table] at mem
    have known : db.Complete u.catalog := by
      rw [extended.catalog]
      exact complete
    obtain ⟨tuple, inTuples, bound, -⟩ := h.exists_tuple known mem (List.append_nil u.joins).symm
    rw [baseAlias_eq] at bound
    exact ⟨tuple, inTuples, bound⟩

/-- The catalog of one table of people. -/
def onlyPeople (people : Table) : Catalog :=
  ⟨(∅ : Dict Table).insert "person" people⟩

/-- The only table is found, whatever name it is looked up by. -/
lemma eq_of_table?_onlyPeople {people t : Table} {name : String}
    (found : (onlyPeople people).table? name = some t) : t = people := by
  rw [onlyPeople, Catalog.table?, Dict.get?_insert] at found
  split at found
  · exact (Option.some.inj found).symm
  · cases found

/-- People with a superior, and maybe a mentor. -/
def mentored : Table :=
  ⟨"person", "T2", [.plain "id" .integer, .plain "name" .text, .foreignKey "boss" ⟨"person", "id"⟩,
    { Column.foreignKey "mentor" ⟨"person", "id"⟩ with nullable := true }]⟩

/-- Somebody who is the own superior, and has no mentor. -/
def founder : Row Nat :=
  fun column => if column = "mentor_id" then none else some 1

/-- The superiors of mentors, of whom the founder has none. -/
theorem outer_joins_propagate_mentored :
    let s : Select := ⟨onlyPeople mentored, mentored, [], [], [], [], [], [], []⟩
    let u := s.after [.filter (.compare (.field "boss.mentor.boss.name") .ne (.field "boss.name"))]
    u.joins.map (·.kind) = [.inner, .leftOuter, .leftOuter] ∧
      ∃ tuple ∈ u.tuples fun store => if store = "T2" then [founder] else [],
        tuple "T2" = some founder := by
  have built : (onlyPeople mentored).Built := .add (t := mentored) .empty rfl
  have coherent : (onlyPeople mentored).Coherent := by
    intro name t found
    obtain rfl := eq_of_table?_onlyPeople found
    decide
  have base : ofTable (onlyPeople mentored) "person" = .ok _ := rfl
  obtain ⟨-, -, rows⟩ := outer_joins_propagate built coherent base _
  refine ⟨by decide, rows _ ?_ founder (List.mem_singleton_self _)⟩
  intro name t column relation target found mem isRelation always isTable row stored
  obtain rfl := eq_of_table?_onlyPeople found
  obtain rfl := eq_of_table?_onlyPeople isTable
  obtain rfl := List.mem_singleton.1 stored
  -- the founder has a value in every other column
  have start : ∀ column ∈ mentored.columns, column.nullable = false →
      column.store ≠ "mentor_id" := by decide
  have target : ∀ column ∈ mentored.columns,
      column.relation.map (·.column) ≠ some "mentor_id" := by decide
  have partner : relation.column ≠ "mentor_id" := by
    have isTarget := target column mem
    rw [isRelation] at isTarget
    exact fun same => isTarget (congrArg some same)
  exact ⟨1, if_neg (start column mem always), founder, List.mem_singleton_self _, if_neg partner⟩

/-- People with a superior who may be missing under another name of the relation. -/
def renamed : Table :=
  ⟨"person", "T2", [.plain "id" .integer, .plain "name" .text, .foreignKey "boss" ⟨"person", "id"⟩,
    { Column.foreignKey "chief" ⟨"person", "id"⟩ with store := "boss_id", nullable := true }]⟩

/-- In a valid catalog that is not coherent, an inner join can start from an outer one, which was made
for a relation that may be missing and is shared by one that may not. -/
theorem inner_follows_outer :
    ¬ ∀ (c : Catalog) (name : String) (s : Select) (operations : List Operation),
      c.Built → (∀ name t, c.table? name = some t → t.columnNames.Nodup) → c.validate = .ok () →
      ofTable c name = .ok s →
      ∀ j ∈ (s.after operations).joins, ∀ k ∈ (s.after operations).joins,
        j.parent = k.tableAlias → k.kind = .leftOuter → j.kind = .leftOuter := by
  intro all
  have built : (onlyPeople renamed).Built := .add (t := renamed) .empty rfl
  have names : ∀ name t, (onlyPeople renamed).table? name = some t → t.columnNames.Nodup := by
    intro name t found
    obtain rfl := eq_of_table?_onlyPeople found
    decide
  have single : (onlyPeople renamed).list = [renamed] := List.mergeSort_singleton _
  have valid : (onlyPeople renamed).validate = .ok () := by
    rw [Catalog.validate, Catalog.violation?, single]
    rfl
  have outer := all (onlyPeople renamed) "person" _
    [.resolve {} (.field "chief.name"), .resolve {} (.field "boss.boss.name")] built names valid rfl
  revert outer
  decide

end Select

end BoundSql
