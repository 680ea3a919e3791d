import BoundSql.Expr.Functions
import BoundSql.Proofs.Expr.Relabelling
import BoundSql.Proofs.Sql.Congruence

/-!
# Relabelled trees in the text

Relabelling is seen in the qualifiers of columns and nowhere else (`relabel_qualifiers`). A relabelled
node is the node over its relabelled sources, which are of the same types and shapes, so that it is
written the same over what these render to; and binding the same parameters goes through rendering
(`Fragment.congruence_params`).
-/

namespace BoundSql

/-- Fragments that bind the same values may differ in their text. -/
lemma Fragment.congruence_params : Congruence fun a b => a.params = b.params where
  join separator {as bs} h := by
    have params : as.map (·.params) = bs.map (·.params) := map_eq_of_forall₂ (fun same => same) h
    rw [join, join, List.flatMap_def, List.flatMap_def, params]
  fill {f a b} alike same := (alike a.sql b.sql).bind fun _ => .ok same

namespace Expr

/-- A relabelling keeps arithmetic arithmetic. -/
lemma isArithmetic_relabel (e : Expr) (renames : Dict String) :
    (e.relabel renames).isArithmetic = e.isArithmetic := by
  induction e using Expr.induction with
  | node e ih =>
    cases e with
    | ref _ s | typed s _ => exact ih s List.mem_cons_self
    | _ => rfl

end Expr

namespace Renderer

/-- A column is written as its two names, and binds nothing. -/
lemma render_column (d : Dialect) (tableAlias name : String) (type : Option SqlType) :
    (standard d).render (.column tableAlias name type) =
      .ok (.raw (d.quoteName tableAlias ++ "." ++ d.quoteName name)) := by
  rw [render_eq, renderNode_of_get?_none (by cases d <;> rfl)]
  rfl

/-- A relabelled tree renders with the same parameters, or fails with the same error. -/
lemma render_relabel (d : Dialect) (e : Expr) (renames : Dict String) :
    SameOutcome Eq (fun a b => a.params = b.params) ((standard d).render (e.relabel renames))
      ((standard d).render e) := by
  induction e using Expr.column_induction with
  | column =>
    rw [Expr.relabel_column, render_column, render_column]
    exact .ok rfl
  | node e other ih =>
    have types : List.Forall₂ (fun s s' => s.type? = s'.type?) e.sources
        (e.sources.map (Expr.relabel renames)) := by
      apply List.forall₂_map_right_iff.2
      exact List.forall₂_same.2 fun s _ => (s.type?_relabel renames).symm
    have shapes : List.Forall₂ (fun s s' => s.isArithmetic = s'.isArithmetic) e.sources
        (e.sources.map (Expr.relabel renames)) := by
      apply List.forall₂_map_right_iff.2
      exact List.forall₂_same.2 fun s _ => (s.isArithmetic_relabel renames).symm
    rw [render_eq, Expr.sources_relabel, List.map_map, Expr.relabel_node other,
      renderNode_replaceSources (List.length_map _) types shapes, render_eq]
    refine Fragment.congruence_params.renderNode (fun _ _ _ => rfl) (List.length_map _) ?_
    rw [List.forall₂_map_left_iff, List.forall₂_map_right_iff]
    exact List.forall₂_same.2 ih

/-- Relabelling keeps the type of a tree, whether it aggregates, and whether it is refused for the
number of its sources. The columns outside of aggregates are relabelled one by one. The tree renders to
other text with the same parameters, or fails with the same error. A tree whose columns have none of the
aliases is left as it is. -/
theorem relabel_qualifiers (renames : Dict String) (d : Dialect) (e : Expr) :
    (e.relabel renames).type? = e.type? ∧
    (e.relabel renames).containsAggregate = e.containsAggregate ∧
    (e.relabel renames).checkArity = e.checkArity ∧
    (e.relabel renames).bareColumns = e.bareColumns.map (Expr.relabel renames) ∧
    ((standard d).render (e.relabel renames)).map (·.params) =
      ((standard d).render e).map (·.params) ∧
    ((∀ tableAlias name type, (Expr.column tableAlias name type).Within e →
      renames.contains tableAlias = false) → e.relabel renames = e) := by
  refine ⟨e.type?_relabel renames, e.containsAggregate_relabel renames,
    e.checkArity_relabel renames, e.bareColumns_relabel renames, ?_, fun absent => ?_⟩
  · have same := render_relabel d e renames
    generalize (standard d).render (e.relabel renames) = x, (standard d).render e = y at same
    cases same with
    | ok params => exact congrArg Except.ok params
    | error eq => exact congrArg Except.error eq
  · refine Expr.relabel_eq_self fun tableAlias name type within => ?_
    exact Option.isNone_iff_eq_none.1 (Option.isSome_eq_false_iff.1 (absent tableAlias name type within))

/-- A limit on pay and on a sum of pay, which is a computed column of another table. -/
def paidOver : Expr :=
  .compare (.arith (.ref "total" (.aggregateOf .sum (.column "T3" "pay" (some .integer)))) .add
    (.column "T2" "pay" (some .integer)) none) .gt (.literal (.integer 10) none)

/-- With the two tables swapped the column outside of the sum is one of the other table, and the limit
is bound as before. Renaming a third table changes nothing. -/
theorem relabel_qualifiers_paidOver :
    let swap := ((∅ : Dict String).insert "T2" "T3").insert "T3" "T2"
    let third := (∅ : Dict String).insert "T4" "T2"
    (paidOver.relabel swap).bareColumns = [.column "T3" "pay" (some .integer)] ∧
      ((standard .sqlite).render (paidOver.relabel swap)).map (·.params) = .ok [.integer 10] ∧
      paidOver.relabel third = paidOver := by
  intro swap third
  have ⟨_, _, _, columns, params, _⟩ := relabel_qualifiers swap .sqlite paidOver
  have ⟨_, _, _, _, _, same⟩ := relabel_qualifiers third .sqlite paidOver
  refine ⟨columns, params, same ?_⟩
  have nodes : paidOver.nodes.filter (·.isColumn) =
      [.column "T3" "pay" (some .integer), .column "T2" "pay" (some .integer)] := rfl
  intro tableAlias name type within
  have mem : Expr.column tableAlias name type ∈ paidOver.nodes.filter (·.isColumn) :=
    List.mem_filter.2 ⟨Expr.mem_nodes_iff.2 within, rfl⟩
  rw [nodes] at mem
  rcases List.mem_pair.1 mem with eq | eq <;> cases eq <;> decide

end Renderer

end BoundSql
