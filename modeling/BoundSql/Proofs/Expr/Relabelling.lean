import BoundSql.Expr.Aggregation
import BoundSql.Expr.Sources
import BoundSql.Proofs.Expr.Places
import BoundSql.Proofs.Expr.Sources
import BoundSql.Proofs.Expr.Typing
import BoundSql.Proofs.Expr.Within

/-!
# Relabelled trees

Relabelling renames columns and rebuilds every other node over its relabelled sources (`relabel_node`).
So each column takes its new name where it stands (`nodeAt?_relabel_eq_column_iff`), what does not look
at the aliases of columns is kept (`relabel_keeps`), a tree that has none of the aliases is left alone
(`relabel_eq_self`), and two relabellings are one (`relabelling_composes`).
-/

namespace BoundSql

namespace Dict

/-- The renames with others done after them, as one dictionary. A name without a rename keeps that of
the others. -/
def followedBy (renames next : Dict String) : Dict String :=
  renames.entries.foldr (fun entry d => d.insert entry.1 ((next.get? entry.2).getD entry.2)) next

/-- Two renamings in turn give what the second makes of the name that the first gives. -/
lemma get?_followedBy (renames next : Dict String) (key : String) :
    (renames.followedBy next).get? key =
      match renames.get? key with
      | some name => some ((next.get? name).getD name)
      | none => next.get? key := by
  obtain ⟨entries, increasing⟩ := renames
  change (entries.foldr _ next).get? key = match find key entries with
    | some name => some ((next.get? name).getD name)
    | none => next.get? key
  clear increasing
  induction entries with
  | nil => rfl
  | cons entry rest ih =>
    rw [List.foldr_cons, get?_insert, find]
    split_ifs
    · rfl
    · exact ih

/-- Names that are swapped and names that are moved along a chain take one step in each dictionary. -/
example :
    let swap := ((∅ : Dict String).insert "T1" "T2").insert "T2" "T1"
    let chain := ((∅ : Dict String).insert "T2" "T3").insert "T3" "T4"
    swap.followedBy chain =
      (((∅ : Dict String).insert "T1" "T3").insert "T2" "T1").insert "T3" "T4" := by
  decide

end Dict

namespace Expr

variable {e : Expr} {renames next : Dict String}

/-- New sources leave a column a column. -/
lemma isColumn_replaceSources (e : Expr) (sources : List Expr) :
    (e.replaceSources sources).isColumn = e.isColumn := by
  unfold replaceSources
  split <;> rfl

/-- What holds of columns, and of any other node whenever it holds of the sources, holds of every
tree. -/
theorem column_induction {P : Expr → Prop}
    (column : ∀ tableAlias name type, P (.column tableAlias name type))
    (node : ∀ e, e.isColumn = false → (∀ s ∈ e.sources, P s) → P e) (e : Expr) : P e := by
  induction e using Expr.induction with
  | node e ih =>
    cases e with
    | column => exact column _ _ _
    | _ => exact node _ rfl ih

/-- A column has its own alias renamed. -/
lemma relabel_column (tableAlias name : String) (type : Option SqlType) :
    (column tableAlias name type).relabel renames =
      column ((renames.get? tableAlias).getD tableAlias) name type :=
  relabel_eq renames _

/-- Any other node is rebuilt over its relabelled sources. -/
lemma relabel_node (other : e.isColumn = false) (renames : Dict String) :
    e.relabel renames = e.replaceSources (e.sources.map (relabel renames)) := by
  rw [relabel_eq]
  cases e with
  | column => cases other
  | _ => rfl

/-- What depends neither on the alias of a column nor on the sources of a node is kept. -/
lemma relabel_keeps {α : Type} {f : Expr → α}
    (column : ∀ tableAlias other name type,
      f (column other name type) = f (column tableAlias name type))
    (node : ∀ (e : Expr) sources, sources.length = e.sources.length →
      f (e.replaceSources sources) = f e) (e : Expr) (renames : Dict String) :
    f (e.relabel renames) = f e := by
  induction e using column_induction with
  | column => exact column _ _ _ _
  | node e other _ =>
    rw [relabel_node other]
    exact node e _ (List.length_map _)

/-- A relabelling leaves a column a column. -/
lemma isColumn_relabel (e : Expr) (renames : Dict String) :
    (e.relabel renames).isColumn = e.isColumn :=
  relabel_keeps (fun _ _ _ _ => rfl) (fun e sources _ => isColumn_replaceSources e sources) e renames

/-- A relabelling leaves an aggregate an aggregate. -/
lemma isAggregate_relabel (e : Expr) (renames : Dict String) :
    (e.relabel renames).isAggregate = e.isAggregate :=
  relabel_keeps (fun _ _ _ _ => rfl) (fun e sources _ => isAggregate_replaceSources e sources) e renames

/-- A relabelled node takes and holds as many sources as it did. -/
lemma checkArity_relabel (e : Expr) (renames : Dict String) :
    (e.relabel renames).checkArity = e.checkArity :=
  relabel_keeps (fun _ _ _ _ => rfl) (fun _ _ length => checkArity_replaceSources length) e renames

/-- The sources of a relabelled node are its relabelled sources. -/
lemma sources_relabel (e : Expr) (renames : Dict String) :
    (e.relabel renames).sources = e.sources.map (relabel renames) := by
  induction e using column_induction with
  | column => rfl
  | node e other _ => rw [relabel_node other, sources_replaceSources (List.length_map _)]

/-- A relabelling neither adds nor removes an aggregate. -/
lemma containsAggregate_relabel (e : Expr) (renames : Dict String) :
    (e.relabel renames).containsAggregate = e.containsAggregate := by
  induction e using Expr.induction with
  | node e ih =>
    have sources : (e.sources.map (relabel renames)).map containsAggregate =
        e.sources.map containsAggregate := by
      rw [List.map_map]
      exact List.map_congr_left ih
    rw [containsAggregate, fold_eq, fold_eq _ e, ← containsAggregate, isAggregate_relabel,
      sources_relabel, sources]

/-- The types of columns are kept, and with them those of all trees. -/
lemma type?_relabel (e : Expr) (renames : Dict String) : (e.relabel renames).type? = e.type? := by
  induction e using column_induction with
  | column => rfl
  | node e other ih =>
    rw [relabel_node other]
    apply type?_replaceSources
    apply List.forall₂_map_right_iff.2
    exact List.forall₂_same.2 fun s mem => (ih s mem).symm

/-- A column is bare itself, and below an aggregate no column is. -/
lemma bareColumns_eq (e : Expr) :
    e.bareColumns = match e with
      | .column .. | .field _ => [e]
      | .aggregate .. => []
      | _ => e.sources.flatMap bareColumns := by
  rw [bareColumns, fold_eq]
  cases e <;> rfl

/-- The columns outside of aggregates are relabelled one by one. -/
lemma bareColumns_relabel (e : Expr) (renames : Dict String) :
    (e.relabel renames).bareColumns = e.bareColumns.map (relabel renames) := by
  induction e using Expr.induction with
  | node e ih =>
    have sources : (e.sources.map (relabel renames)).flatMap bareColumns =
        (e.sources.flatMap bareColumns).map (relabel renames) := by
      rw [List.flatMap_map, List.map_flatMap]
      exact List.flatMap_congr ih
    rw [bareColumns_eq, bareColumns_eq e, sources_relabel]
    cases e with
    | column | field | aggregate => rfl
    | _ => exact sources

/-- The node at a place of a relabelled tree is the relabelled node that stood there. -/
lemma nodeAt?_relabel (place : List Nat) (e : Expr) (renames : Dict String) :
    (e.relabel renames).nodeAt? place = (e.nodeAt? place).map (relabel renames) := by
  induction place generalizing e with
  | nil => rfl
  | cons i place ih =>
    rw [nodeAt?_cons, nodeAt?_cons, sources_relabel, List.getElem?_map]
    cases e.sources[i]? with
    | none => rfl
    | some s => exact ih s

/-- The columns of a relabelled tree are those of the tree, each at its place, at any depth, and under
the new name of its alias or the old one where there is no new one. -/
theorem nodeAt?_relabel_eq_column_iff {place : List Nat} {new name : String} {type : Option SqlType} :
    (e.relabel renames).nodeAt? place = some (column new name type) ↔
      ∃ old, e.nodeAt? place = some (column old name type) ∧ new = (renames.get? old).getD old := by
  rw [nodeAt?_relabel, Option.map_eq_some_iff]
  constructor
  · rintro ⟨n, found, renamed⟩
    have isColumn : n.isColumn = true := by rw [← isColumn_relabel n renames, renamed]; rfl
    cases n with
    | column old =>
      rw [relabel_column] at renamed
      cases renamed
      exact ⟨old, found, rfl⟩
    | _ => cases isColumn
  · rintro ⟨old, found, rfl⟩
    exact ⟨column old name type, found, relabel_column old name type⟩

/-- A tree whose columns have none of the aliases stays as it is. -/
lemma relabel_eq_self
    (absent : ∀ tableAlias name type, (column tableAlias name type).Within e →
      renames.get? tableAlias = none) : e.relabel renames = e := by
  induction e using column_induction with
  | column tableAlias name type =>
    rw [relabel_column, absent tableAlias name type .root]
    rfl
  | node e other ih =>
    have sources : e.sources.map (relabel renames) = e.sources := by
      refine (List.map_congr_left fun s mem => ?_).trans (List.map_id _)
      exact ih s mem fun tableAlias name type within =>
        absent tableAlias name type (.source mem within)
    rw [relabel_node other, sources, replaceSources_sources]

/-- Relabelling twice is relabelling once, by the dictionary that sends each name of the first one to
what the second one makes of the new name, and each other name to its new name in the second one. -/
theorem relabelling_composes (renames next : Dict String) :
    (∀ key, (renames.followedBy next).get? key =
      match renames.get? key with
      | some name => some ((next.get? name).getD name)
      | none => next.get? key) ∧
    ∀ e : Expr, (e.relabel renames).relabel next = e.relabel (renames.followedBy next) := by
  refine ⟨renames.get?_followedBy next, fun e => ?_⟩
  induction e using column_induction with
  | column tableAlias name type =>
    rw [relabel_column, relabel_column, relabel_column, Dict.get?_followedBy]
    cases renames.get? tableAlias <;> rfl
  | node e other ih =>
    have sources : (e.sources.map (relabel renames)).map (relabel next) =
        e.sources.map (relabel (renames.followedBy next)) := by
      rw [List.map_map]
      exact List.map_congr_left ih
    rw [relabel_node (by rw [isColumn_relabel, other]), sources_relabel, sources,
      relabel_node other, relabel_node other,
      replaceSources_replaceSources (List.length_map _) (List.length_map _)]

end Expr

end BoundSql
