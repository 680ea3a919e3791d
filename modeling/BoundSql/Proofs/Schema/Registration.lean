import BoundSql.Proofs.KeyOrder
import BoundSql.Proofs.Schema.Catalog
import Mathlib.Data.List.Nodup
import Mathlib.Data.List.Perm.Basic

/-!
# Registration in any order

A catalog `Holds` a list of tables when it finds these under their names and nothing else. Adding tables
with names of their own succeeds and gives a catalog that holds them (`exists_ofTables`), and from that
alone follow the order in which the tables are listed and the violation that is reported first. So it
makes no difference in which order tables are added (`registration_unordered`).
-/

namespace BoundSql

/-- The relation of a column, if it has one, points at one of the tables and a column that
this stores. -/
def Column.Lands (column : Column) (ts : List Table) : Prop :=
  ∀ relation, column.relation = some relation →
    ∃ target ∈ ts, target.name = relation.table ∧ target.Stores relation.column

/-- The relation of a column of a table points at none of the tables, or at a column that its target
does not store. -/
inductive Violation (ts : List Table) (t : Table) (column : Column) : SchemaError → Prop where
  | table {relation} :
      column.relation = some relation →
      (∀ target ∈ ts, target.name ≠ relation.table) →
      Violation ts t column (.unknownTarget t.name column.name relation.table)
  | column {relation target} :
      column.relation = some relation →
      target ∈ ts →
      target.name = relation.table →
      ¬ target.Stores relation.column →
      Violation ts t column
        (.unknownTargetColumn t.name column.name relation.table relation.column)

/-- A violation before which there is none: neither in a table of a lesser name nor in a column of the
same table that stands before. -/
def FirstViolation (ts : List Table) (e : SchemaError) : Prop :=
  ∃ t ∈ ts, ∃ before column after, t.columns = before ++ column :: after ∧
    Violation ts t column e ∧ (∀ earlier ∈ before, earlier.Lands ts) ∧
    ∀ t' ∈ ts, utf8 t'.name < utf8 t.name → ∀ earlier ∈ t'.columns, earlier.Lands ts

namespace Catalog

/-- The catalog of tables that are added one after another. -/
def ofTables (ts : List Table) : Except SchemaError Catalog :=
  ts.foldlM add .empty

/-- The tables of the catalog are those of a list, each under its name. -/
def Holds (c : Catalog) (ts : List Table) : Prop :=
  ∀ name t, c.table? name = some t ↔ t ∈ ts ∧ t.name = name

variable {c c' : Catalog} {ts ts' : List Table} {t : Table} {column : Column} {e : SchemaError}

/-- A catalog holds its tables in any order. -/
lemma Holds.of_perm (h : c.Holds ts) (perm : ts'.Perm ts) : c.Holds ts' := by
  intro name t
  rw [h, perm.mem_iff]

/-- A name is unknown just when no registered table has it. -/
lemma Holds.table?_eq_none_iff (h : c.Holds ts) {name : String} :
    c.table? name = none ↔ ∀ target ∈ ts, target.name ≠ name := by
  simp only [Option.eq_none_iff_forall_ne_some, ne_eq, h name, not_and]

/-- A table with a name of its own is added to those that are there. -/
lemma Holds.add (h : c.Holds ts) (new : t.name ∉ ts.map (·.name)) :
    ∃ c', c.add t = .ok c' ∧ c'.Holds (ts ++ [t]) := by
  have free : c.table? t.name = none :=
    h.table?_eq_none_iff.2 fun target mem same => new (List.mem_map.2 ⟨target, mem, same⟩)
  refine ⟨⟨c.tables.insert t.name t⟩, ?_, fun name t' => ?_⟩
  · rw [Catalog.add, if_neg]
    rw [Dict.contains, ← table?, free]
    exact Bool.false_ne_true
  · rw [table?, Dict.get?_insert, List.mem_append, List.mem_singleton]
    split_ifs with same
    · subst same
      rw [Option.some_inj]
      constructor
      · rintro rfl
        exact ⟨.inr rfl, rfl⟩
      · rintro ⟨mem | rfl, same⟩
        · exact absurd (List.mem_map.2 ⟨t', mem, same⟩) new
        · rfl
    · rw [← table?, h]
      constructor
      · exact And.imp_left .inl
      · rintro ⟨mem | rfl, named⟩
        · exact ⟨mem, named⟩
        · exact absurd named same

/-- So are any number of tables with names of their own. -/
lemma Holds.addAll (h : c.Holds ts) (distinct : ((ts ++ ts').map (·.name)).Nodup) :
    ∃ c', ts'.foldlM Catalog.add c = .ok c' ∧ c'.Holds (ts ++ ts') := by
  induction ts' generalizing c ts with
  | nil => exact ⟨c, rfl, by rwa [List.append_nil]⟩
  | cons t ts' ih =>
    have new : t.name ∉ ts.map (·.name) := by
      rw [List.map_append, List.map_cons, List.nodup_middle, List.nodup_cons] at distinct
      exact fun mem => distinct.1 (List.mem_append_left _ mem)
    obtain ⟨next, added, holds⟩ := h.add new
    rw [List.append_cons] at distinct ⊢
    obtain ⟨c', rest, holds'⟩ := ih holds distinct
    refine ⟨c', ?_, holds'⟩
    rw [List.foldlM_cons, added]
    exact rest

/-- Tables with names of their own make a catalog that holds them. -/
lemma exists_ofTables (distinct : (ts.map (·.name)).Nodup) :
    ∃ c, ofTables ts = .ok c ∧ c.Holds ts := by
  have none : Catalog.empty.Holds [] := fun name t =>
    iff_of_false nofun fun h => absurd h.1 List.not_mem_nil
  exact none.addAll distinct

/-- The stored tables are the registered ones. -/
lemma Holds.mem_values (h : c.Holds ts) : t ∈ c.tables.values ↔ t ∈ ts := by
  rw [Dict.mem_values_iff]
  constructor
  · rintro ⟨name, found⟩
    exact ((h name t).1 found).1
  · intro mem
    exact ⟨t.name, (h t.name t).2 ⟨mem, rfl⟩⟩

/-- The listed tables are the registered ones. -/
lemma Holds.mem_list (h : c.Holds ts) : t ∈ c.list ↔ t ∈ ts := by
  rw [list, List.mem_mergeSort, h.mem_values]

/-- Tables are listed in the order of the bytes of their names. -/
lemma Holds.list_increasing (h : c.Holds ts) :
    c.list.Pairwise fun t t' => utf8 t.name < utf8 t'.name := by
  have sorted : c.list.Pairwise fun t t' => t.name ≤ t'.name := by
    have le : c.list.Pairwise fun t t' => decide (t.name ≤ t'.name) = true :=
      List.pairwise_mergeSort
        (fun a b c ab bc => by simpa using le_trans (of_decide_eq_true ab) (of_decide_eq_true bc))
        (fun a b => by simpa using le_total a.name b.name) c.tables.values
    exact le.imp of_decide_eq_true
  have distinct : c.list.Pairwise fun t t' => t.name ≠ t'.name := by
    rw [list, (List.mergeSort_perm _ _).pairwise_iff fun ne => ne.symm]
    refine Dict.pairwise_values fun found found' lt => ?_
    -- the keys are the names
    rw [((h _ _).1 found).2, ((h _ _).1 found').2]
    exact lt.ne
  exact (sorted.and distinct).imp fun both => utf8_lt_utf8_iff.2 (lt_of_le_of_ne both.1 both.2)

/-- Each registered table is listed once. -/
lemma Holds.list_perm (h : c.Holds ts) (distinct : (ts.map (·.name)).Nodup) : c.list.Perm ts := by
  have nodup : c.list.Nodup := by
    refine h.list_increasing.imp fun {a b} lt same => ?_
    exact List.lt_irrefl _ (same ▸ lt)
  exact (List.perm_ext_iff_of_nodup nodup (.of_map _ distinct)).2 fun t => h.mem_list

/-- The tables that are listed before one are those of lesser names. -/
lemma Holds.mem_lesser_iff (h : c.Holds ts) {t t' : Table} {lesser greater : List Table}
    (eq : c.list = lesser ++ t :: greater) :
    t' ∈ lesser ↔ t' ∈ ts ∧ utf8 t'.name < utf8 t.name := by
  have increasing := h.list_increasing
  rw [eq, List.pairwise_append, List.pairwise_cons] at increasing
  obtain ⟨-, ⟨behind, -⟩, across⟩ := increasing
  rw [← h.mem_list, eq, List.mem_append, List.mem_cons]
  constructor
  · intro mem
    exact ⟨.inl mem, across t' mem t List.mem_cons_self⟩
  · rintro ⟨mem | rfl | mem, lt⟩
    · exact mem
    · exact absurd lt (List.lt_irrefl _)
    · exact absurd lt (List.lt_asymm (behind t' mem))

/-- Only one list has the tables in this order. -/
lemma Holds.list_eq (h : c.Holds ts) (h' : c'.Holds ts) (distinct : (ts.map (·.name)).Nodup) :
    c'.list = c.list := by
  refine ((h'.list_perm distinct).trans (h.list_perm distinct).symm).eq_of_pairwise ?_
    h'.list_increasing h.list_increasing
  intro a b _ _ lt lt'
  exact absurd lt' (List.lt_asymm lt)

/-- No violation is seen in a column whose relation lands, and only there. -/
lemma Holds.violationOf?_eq_none_iff (h : c.Holds ts) :
    c.violationOf? t column = none ↔ column.Lands ts := by
  rw [Catalog.violationOf?_eq_none_iff, Column.Lands]
  simp only [h _ _, and_assoc]

/-- What the check says of a column is its violation among the registered tables. -/
lemma Holds.violationOf?_eq_some_iff (h : c.Holds ts) :
    c.violationOf? t column = some e ↔ Violation ts t column e := by
  constructor
  · intro seen
    rw [violationOf?] at seen
    split at seen
    · cases seen
    · rename_i relation isRelation
      split at seen
      · rename_i missing
        cases seen
        exact .table isRelation (h.table?_eq_none_iff.1 missing)
      · rename_i target found
        obtain ⟨mem, named⟩ := (h _ _).1 found
        split at seen
        · cases seen
        · rename_i notStored
          cases seen
          exact .column isRelation mem named (mt Table.any_store_iff.2 notStored)
  · rintro (⟨isRelation, missing⟩ | ⟨isRelation, mem, named, notStored⟩)
    · simp only [violationOf?, isRelation, h.table?_eq_none_iff.2 missing]
    · simp only [violationOf?, isRelation, (h _ _).2 ⟨mem, named⟩]
      exact if_neg (mt Table.any_store_iff.1 notStored)

/-- A table without a violation. -/
lemma Holds.findSome?_eq_none_iff (h : c.Holds ts) :
    t.columns.findSome? (c.violationOf? t) = none ↔ ∀ column ∈ t.columns, column.Lands ts := by
  simp only [List.findSome?_eq_none_iff, h.violationOf?_eq_none_iff]

/-- The violation that is reported is the first one. -/
lemma Holds.validate_eq_error_iff (h : c.Holds ts) :
    c.validate = .error e ↔ FirstViolation ts e := by
  have reported : c.validate = .error e ↔ c.violation? = some e := by
    rw [validate]
    cases c.violation? <;> simp
  rw [reported, violation?, List.findSome?_eq_some_iff]
  constructor
  · rintro ⟨lesser, t, greater, eq, seen, unseen⟩
    have mem : t ∈ ts := h.mem_list.1 (eq ▸ List.mem_append_right lesser List.mem_cons_self)
    obtain ⟨before, column, after, columns, violation, lands⟩ := List.findSome?_eq_some_iff.1 seen
    refine ⟨t, mem, before, column, after, columns, h.violationOf?_eq_some_iff.1 violation,
      fun earlier mem => h.violationOf?_eq_none_iff.1 (lands earlier mem), ?_⟩
    intro t' mem' lt
    exact h.findSome?_eq_none_iff.1 (unseen t' ((h.mem_lesser_iff eq).2 ⟨mem', lt⟩))
  · rintro ⟨t, mem, before, column, after, columns, violation, lands, lesserLand⟩
    obtain ⟨lesser, greater, eq⟩ := List.append_of_mem (h.mem_list.2 mem)
    refine ⟨lesser, t, greater, eq, ?_, fun t' mem' => ?_⟩
    · exact List.findSome?_eq_some_iff.2 ⟨before, column, after, columns,
        h.violationOf?_eq_some_iff.2 violation,
        fun earlier mem => h.violationOf?_eq_none_iff.2 (lands earlier mem)⟩
    · obtain ⟨mem', lt⟩ := (h.mem_lesser_iff eq).1 mem'
      exact h.findSome?_eq_none_iff.2 (lesserLand t' mem' lt)

/-- A catalog is valid when all relations land. -/
lemma Holds.validate_eq_ok_iff (h : c.Holds ts) :
    c.validate = .ok () ↔ ∀ t ∈ ts, ∀ column ∈ t.columns, column.Lands ts := by
  simp only [Catalog.validate_eq_ok_iff, h.mem_values, h.violationOf?_eq_none_iff]

/-- Catalogs that hold the same tables are validated alike. -/
lemma Holds.validate_eq (h : c.Holds ts) (h' : c'.Holds ts) : c'.validate = c.validate := by
  cases report : c.validate with
  | ok =>
    exact h'.validate_eq_ok_iff.2 (h.validate_eq_ok_iff.1 report)
  | error e =>
    exact h'.validate_eq_error_iff.2 (h.validate_eq_error_iff.1 report)

/-- Tables with names of their own can be added to a catalog in any order, and the catalogs that come
out find and list the same tables and report the same. They find each table under its name, list all of
them in the order of the bytes of their names, are valid when every relation points at one of the tables
and a column that this stores, and report the first violation otherwise, in the order of the names of
the tables and then of their columns. -/
theorem registration_unordered {ts ts' : List Table} (distinct : (ts.map (·.name)).Nodup)
    (perm : ts'.Perm ts) :
    ∃ c c', ofTables ts = .ok c ∧ ofTables ts' = .ok c' ∧
      (∀ name, c'.table? name = c.table? name) ∧ c'.list = c.list ∧ c'.validate = c.validate ∧
      (∀ name t, c.table? name = some t ↔ t ∈ ts ∧ t.name = name) ∧
      c.list.Perm ts ∧ (c.list.Pairwise fun t t' => utf8 t.name < utf8 t'.name) ∧
      (c.validate = .ok () ↔ ∀ t ∈ ts, ∀ column ∈ t.columns, ∀ relation,
        column.relation = some relation →
          ∃ target ∈ ts, target.name = relation.table ∧ target.Stores relation.column) ∧
      ∀ e, c.validate = .error e ↔ FirstViolation ts e := by
  obtain ⟨c, added, h⟩ := exists_ofTables distinct
  obtain ⟨c', added', h'⟩ := exists_ofTables ((perm.map (·.name)).nodup_iff.2 distinct)
  replace h' := h'.of_perm perm.symm
  have found : ∀ name, c'.table? name = c.table? name := by
    intro name
    apply Option.ext
    intro t
    rw [h', h]
  exact ⟨c, c', added, added', found, h.list_eq h' distinct, h.validate_eq h', h,
    h.list_perm distinct, h.list_increasing, h.validate_eq_ok_iff, fun _ => h.validate_eq_error_iff⟩

/-- Persons, whose ships are not in the catalog. -/
def person : Table :=
  ⟨"person", "person", [.plain "id" .integer, .foreignKey "boss" ⟨"person", "id"⟩,
    .foreignKey "ship" ⟨"ship", "id"⟩]⟩

/-- Crews, led by persons with a key that these do not store, and on ships that are not in
the catalog. -/
def crew : Table :=
  ⟨"crew", "crew", [.plain "name" .text, .foreignKey "lead" ⟨"person", "key"⟩,
    .foreignKey "ship" ⟨"ship", "id"⟩]⟩

/-- The leads of the crews are reported, whether crews were added first or persons. -/
theorem registration_unordered_crews :
    let e : SchemaError := .unknownTargetColumn "crew" "lead" "person" "key"
    ([person, crew].map (·.name)).Nodup ∧ [crew, person].Perm [person, crew] ∧
      (∃ c c', ofTables [person, crew] = .ok c ∧ ofTables [crew, person] = .ok c' ∧
        c.validate = .error e ∧ c'.validate = .error e) ∧
      e.message = "Relation 'crew.lead' points at unknown column 'person.key'" := by
  intro e
  have distinct : ([person, crew].map (·.name)).Nodup := by decide
  have perm : [crew, person].Perm [person, crew] := .swap person crew []
  obtain ⟨c, c', added, added', -, -, same, -, -, -, -, reports⟩ :=
    registration_unordered distinct perm
  have registered : person ∈ [person, crew] := List.mem_cons_self
  have noKey : ¬ person.Stores "key" := mt Table.any_store_iff.2 (by decide)
  have leads : (Column.foreignKey "lead" ⟨"person", "key"⟩).relation = some ⟨"person", "key"⟩ := rfl
  have first : FirstViolation [person, crew] e := by
    refine ⟨crew, .tail _ (.head _), [.plain "name" .text], .foreignKey "lead" ⟨"person", "key"⟩,
      [.foreignKey "ship" ⟨"ship", "id"⟩], rfl, .column leads registered rfl noKey, ?_, ?_⟩
    · intro earlier mem relation isRelation
      obtain rfl := List.mem_singleton.1 mem
      cases isRelation
    · intro t mem lt
      -- no name is less than that of the crews
      rw [utf8_lt_utf8_iff] at lt
      simp only [List.mem_cons, List.not_mem_nil, or_false] at mem
      rcases mem with rfl | rfl
      · exact absurd lt (by decide)
      · exact absurd lt (String.lt_irrefl _)
  have report := (reports e).2 first
  exact ⟨distinct, perm, ⟨c, c', added, added', report, same.trans report⟩, rfl⟩

end Catalog

end BoundSql
