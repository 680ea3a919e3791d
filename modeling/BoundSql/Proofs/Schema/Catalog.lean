import BoundSql.Schema.Catalog
import Mathlib.Tactic.Lemma

/-!
# Catalogs that are built

A catalog is built by adding tables to the empty one. Each table of it is found under its own name
(`Built.name_eq`). In a coherent catalog, relations that join alike may be missing alike. A catalog is
closed when each relation of it has its target, which is what validation makes sure of
(`closed_of_validate`).
-/

namespace BoundSql

/-- A column of the table is stored under the name. -/
def Table.Stores (t : Table) (name : String) : Prop :=
  ∃ column ∈ t.columns, column.store = name

/-- The search for a stored name finds one just when the table stores it. -/
lemma Table.any_store_iff {t : Table} {name : String} :
    t.columns.any (·.store == name) = true ↔ t.Stores name := by
  simp only [List.any_eq_true, beq_iff_eq, Stores]

namespace Catalog

/-- A catalog whose tables were added one by one. -/
inductive Built : Catalog → Prop where
  | empty : Built .empty
  | add {c c' : Catalog} {t : Table} : Built c → c.add t = .ok c' → Built c'

/-- A table of such a catalog is found under its own name. -/
lemma Built.name_eq {c : Catalog} {name : String} {t : Table} (built : c.Built)
    (found : c.table? name = some t) : t.name = name := by
  induction built with
  | empty => cases found
  | @add c c' added _ new ih =>
    rw [Catalog.add] at new
    split at new
    · cases new
    · cases new
      rw [table?, Dict.get?_insert] at found
      split at found
      · cases found
        assumption
      · exact ih found

/-- Relations of a table that are stored in one column and have one target agree on whether they may be
missing. -/
def Coherent (c : Catalog) : Prop :=
  ∀ {name t}, c.table? name = some t → ∀ a ∈ t.columns, ∀ b ∈ t.columns,
    a.relation.isSome = true → a.relation = b.relation → a.store = b.store → a.nullable = b.nullable

/-- Every relation points at a table of the catalog, and at a column that the table stores. -/
def Closed (c : Catalog) : Prop :=
  ∀ {name t}, c.table? name = some t → ∀ column ∈ t.columns, ∀ relation,
    column.relation = some relation →
      ∃ target, c.table? relation.table = some target ∧ target.Stores relation.column

/-- A column without a violation is no relation, or one that has its target. -/
lemma violationOf?_eq_none_iff {c : Catalog} {t : Table} {column : Column} :
    c.violationOf? t column = none ↔ ∀ relation, column.relation = some relation →
      ∃ target, c.table? relation.table = some target ∧ target.Stores relation.column := by
  rw [violationOf?]
  cases column.relation with
  | none => exact iff_of_true rfl nofun
  | some relation =>
    simp only [Option.some.injEq, forall_eq']
    cases c.table? relation.table with
    | none => exact iff_of_false nofun nofun
    | some target =>
      simp only [Option.some.injEq, exists_eq_left']
      by_cases stored : target.Stores relation.column
      · exact iff_of_true (if_pos (Table.any_store_iff.2 stored)) stored
      · rw [if_neg (mt Table.any_store_iff.1 stored)]
        exact iff_of_false nofun stored

/-- Validation looks at each table, whatever the order. -/
lemma validate_eq_ok_iff {c : Catalog} :
    c.validate = .ok () ↔
      ∀ t ∈ c.tables.values, ∀ column ∈ t.columns, c.violationOf? t column = none := by
  have sound : c.validate = .ok () ↔ c.violation? = none := by
    rw [validate]
    cases c.violation? <;> simp
  rw [sound, violation?]
  simp only [List.findSome?_eq_none_iff, list, List.mem_mergeSort]

/-- A valid catalog is closed. -/
lemma closed_of_validate {c : Catalog} (valid : c.validate = .ok ()) : c.Closed := by
  intro name t found column mem relation isRelation
  have sound := validate_eq_ok_iff.1 valid t (Dict.mem_values_of_get? found) column mem
  exact violationOf?_eq_none_iff.1 sound relation isRelation

end Catalog

end BoundSql
