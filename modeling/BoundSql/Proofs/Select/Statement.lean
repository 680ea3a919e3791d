import BoundSql.Proofs.Except
import BoundSql.Proofs.Expr.Bare
import BoundSql.Proofs.Select.Steps

/-!
# Expressions of a statement

What a statement is rendered from: the stored expressions, the select list and the columns to group
by, which are columns and fields that other expressions use (`mem_groupBy`). A statement fails only
as one of these does (`exists_of_render_error`).
-/

namespace BoundSql.Select

variable {s : Select} {r : Renderer} {x : Error} {e : Expr}

/-- Leaving out duplicates brings nothing in. -/
lemma mem_of_mem_eraseDups {α : Type} [BEq α] {l : List α} {x : α} (h : x ∈ l.eraseDups) :
    x ∈ l := by
  induction length : l.length using Nat.strongRecOn generalizing l with
  | ind size ih =>
    cases l with
    | nil => exact h
    | cons y rest =>
      rw [List.eraseDups_cons] at h
      rcases List.mem_cons.1 h with rfl | h
      · exact List.mem_cons_self
      · have shorter : (rest.filter fun b => !b == y).length < size := by
          rw [← length]
          exact Nat.lt_succ_of_le (List.length_filter_le _ rest)
        exact List.mem_cons_of_mem y (List.mem_of_mem_filter (ih _ shorter h rfl))

/-- What a statement groups by are columns and fields that stand in its expressions. -/
lemma mem_groupBy (mem : e ∈ s.groupBy.getD []) :
    (e.isColumn = true ∨ e.isField = true) ∧ ∃ used, (used ∈ s.selectList ∨ used ∈ s.stored) ∧
      e.Within used := by
  rw [groupBy] at mem
  split at mem
  · obtain ⟨used, source, bare⟩ := List.mem_flatMap.1 (mem_of_mem_eraseDups mem)
    rw [← Expr.map_bareOccurrences] at bare
    obtain ⟨⟨place, e⟩, occurs, rfl⟩ := List.mem_map.1 bare
    have columnar := Expr.columnar_of_mem_bareOccurrences occurs
    refine ⟨columnar, used, ?_, ((Expr.mem_bareOccurrences columnar).1 occurs).within⟩
    simp only [stored, List.mem_append] at source ⊢
    tauto
  · cases mem

/-- A clause fails for one of its expressions. -/
lemma exists_of_renderClause_error {keyword separator : String} {es : List Expr}
    (run : renderClause r keyword separator es = .error x) : ∃ e ∈ es, r.render e = .error x := by
  rw [renderClause] at run
  split at run
  · cases run
  · rcases except_bind_error run with run | ⟨body, -, run⟩
    · rcases except_bind_error run with run | ⟨parts, -, run⟩
      · exact except_mapM_error run
      · cases run
    · cases run

/-- Under a name, rendering fails for the expression alone. -/
lemma render_of_renderNamed_error {named : String × Expr}
    (run : renderNamed r named = .error x) : r.render named.2 = .error x := by
  rcases except_bind_error run with run | ⟨body, -, run⟩
  · exact run
  · cases run

/-- A selection fails for one of the selected or stored expressions. -/
lemma exists_of_renderSelected_error (run : s.renderSelected r = .error x) :
    ∃ e, (e ∈ s.selectList ∨ e ∈ s.stored) ∧ r.render e = .error x := by
  have named {l : List (String × Expr)} (sub : ∀ e ∈ l.map (·.2), e ∈ s.stored)
      (run : l.mapM (renderNamed r) = .error x) :
      ∃ e, (e ∈ s.selectList ∨ e ∈ s.stored) ∧ r.render e = .error x := by
    obtain ⟨entry, mem, run⟩ := except_mapM_error run
    exact ⟨entry.2, .inr (sub _ (List.mem_map_of_mem mem)), render_of_renderNamed_error run⟩
  rw [renderSelected] at run
  split at run
  · rcases except_bind_error run with run | ⟨columns, -, run⟩
    · obtain ⟨e, mem, run⟩ := except_mapM_error run
      exact ⟨e, .inl mem, run⟩
    · rcases except_bind_error run with run | ⟨computed, -, run⟩
      · refine named (fun e mem => ?_) run
        simp only [stored, List.mem_append, mem, true_or, or_true]
      · cases run
  · rcases except_bind_error run with run | ⟨summary, -, run⟩
    · refine named (fun e mem => ?_) run
      simp only [stored, List.mem_append, mem, or_true]
    · cases run

/-- A statement fails as one of its expressions does. -/
lemma exists_of_render_error (run : s.render r = .error x) :
    ∃ e, (e ∈ s.selectList ∨ e ∈ s.stored ∨ e ∈ s.groupBy.getD []) ∧ r.render e = .error x := by
  have clause {keyword separator : String} {es : List Expr} (sub : es ⊆ s.stored)
      (run : renderClause r keyword separator es = .error x) :
      ∃ e, (e ∈ s.selectList ∨ e ∈ s.stored ∨ e ∈ s.groupBy.getD []) ∧ r.render e = .error x := by
    obtain ⟨e, mem, run⟩ := exists_of_renderClause_error run
    exact ⟨e, .inr (.inl (sub mem)), run⟩
  rcases except_bind_error run with run | ⟨selected, -, run⟩
  · obtain ⟨e, mem, run⟩ := exists_of_renderSelected_error run
    exact ⟨e, mem.imp_right .inl, run⟩
  rcases except_bind_error run with run | ⟨conditions, -, run⟩
  · refine clause (fun e mem => ?_) run
    simp only [stored, List.mem_append, mem, true_or, or_true]
  rcases except_bind_error run with run | ⟨groups, -, run⟩
  · obtain ⟨e, mem, run⟩ := exists_of_renderClause_error run
    exact ⟨e, .inr (.inr mem), run⟩
  rcases except_bind_error run with run | ⟨groupConditions, -, run⟩
  · refine clause (fun e mem => ?_) run
    simp only [stored, List.mem_append, mem, true_or, or_true]
  rcases except_bind_error run with run | ⟨order, -, run⟩
  · refine clause (fun e mem => ?_) run
    split at mem
    · simp only [stored, List.mem_append, mem, true_or, or_true]
    · cases mem
  · cases run

end BoundSql.Select
