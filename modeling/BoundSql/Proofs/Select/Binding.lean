import BoundSql.Proofs.Expr.Settled
import BoundSql.Proofs.Select.Statement
import BoundSql.Proofs.Sql.Rendering
import BoundSql.Proofs.Sql.Unresolved

/-!
# Complete binding

Resolving a tree binds all of it. Outside of references every node of the result is settled, whatever
the query is (`settled_resolve`). Trees that have no references of their own get only those that the
query answers with, so all that is stored after any operations is settled to the leaves
(`settled_stable`), and no statement reports a path as unresolved (`resolution_complete`).
-/

namespace BoundSql.Select

open Select.Action

variable {s t : Select} {mode : Resolution} {e r : Expr}

/-- A path is answered by a column or a reference. -/
lemma columnar_of_resolveField {path : String} (run : (resolveField mode path).on s = (.ok r, t)) :
    r.isColumn = true ∨ r.isRef = true := by
  rcases resolveField_cases mode path s with
    ⟨name, source, run', -⟩ | ⟨place, column, u, run', -⟩ | ⟨_, _, _, _, run', -⟩
  · cases run'.symm.trans run
    exact .inr rfl
  · cases run'.symm.trans run
    exact .inl rfl
  · cases run'.symm.trans run

/-- Every answer to a path is a column or a reference to an annotation. -/
lemma columnar_of_resolveFields {paths : List String} {answers : List Expr}
    (run : (resolveFields mode paths).on s = (.ok answers, t)) :
    ∀ a ∈ answers, a.isColumn = true ∨ a.isRef = true := by
  induction paths generalizing s answers with
  | nil =>
    cases run
    exact List.forall_mem_nil _
  | cons path paths ih =>
    rw [resolveFields, List.mapM_cons] at run
    obtain ⟨a, t, first, run⟩ := bind_ok run
    obtain ⟨as, u, rest, run⟩ := bind_ok run
    cases run
    exact List.forall_mem_cons.2 ⟨columnar_of_resolveField first, ih rest⟩

/-- Outside of references what a tree resolves to is settled, and its aggregates are over all rows or
not as asked for. -/
lemma settled_resolve (run : (resolve mode e).on s = (.ok r, t)) {n : Expr}
    (outside : n.OutsideRefs r) : n.Settled ∧ n.SummarizesAs mode.summarize := by
  obtain ⟨answers, fields, resolves, -⟩ := (follows_resolve mode e).ok run
  exact resolves.settled (columnar_of_resolveFields fields) outside

/-- Trees without references of their own leave nothing unsettled in a query. -/
lemma settled_stable : Stable (·.Throughout (·.isRef = false)) Expr.Settled where
  plain plain := plain
  node _ _ accepts summarize := accepts.settled summarize
  column _ _ _ := Expr.settled_of_isColumn rfl
  ref _ _ := Expr.settled_of_isRef rfl
  logic := Expr.settled_logic
  sorted := Expr.settled_sorted

/-- The statement of a query whose stored expressions are settled reports a path as unresolved only
when an override makes another result into this report. -/
lemma exists_override_of_render {renderer : Renderer} {path : String}
    (settled : ∀ e ∈ s.stored, e.Throughout Expr.Settled)
    (run : s.render renderer = .error (.unresolved path)) :
    ∃ kind edit result,
      renderer.overrides.get? renderer.dialect kind = some (.custom (.edited edit)) ∧
      result ≠ .error (.unresolved path) ∧ edit result = .error (.unresolved path) := by
  have selected := throughout_selectList settled fun _ _ => Expr.settled_of_isColumn rfl
  have free {e : Expr} (h : e.Throughout Expr.Settled) : ¬ (Expr.field path).Within e := by
    intro within
    cases (h _ within).field
  by_contra none
  have own : ∀ kind edit result,
      renderer.overrides.get? renderer.dialect kind = some (.custom (.edited edit)) →
      edit result = .error (.unresolved path) → result = .error (.unresolved path) := by
    intro kind edit result found reports
    by_contra ne
    exact none ⟨kind, edit, result, found, ne, reports⟩
  obtain ⟨e, source, run⟩ := exists_of_render_error run
  have within := Renderer.within_of_render own run
  rcases source with select | stored | group
  · exact free (selected e select) within
  · exact free (settled e stored) within
  · -- what is grouped by stands in an expression of the statement
    obtain ⟨-, used, source, inside⟩ := mem_groupBy group
    rcases source with select | stored
    · exact free (selected used select) (within.trans inside)
    · exact free (settled used stored) (within.trans inside)

/-- What resolves is bound completely. Outside of its references no field is left, every node holds as
many sources as it takes, no aggregate aggregates again, every aggregate is over all rows exactly when
that was asked for, and then there is one. After any operations on trees without references all that is
stored is settled, inside of references too. So a statement reports a path as unresolved only when an
override makes another result into this report, and none of the dialects has such an override. -/
theorem resolution_complete {c : Catalog} {name : String} (base : ofTable c name = .ok s)
    (operations : List Operation)
    (plain : ∀ operation ∈ operations, ∀ e ∈ operation.trees, e.Throughout (·.isRef = false)) :
    (∀ mode e q r t, (resolve mode e).on q = (.ok r, t) →
      (∀ n : Expr, n.OutsideRefs r → n.Settled ∧ n.SummarizesAs mode.summarize) ∧
      (mode.summarize = true → r.containsAggregate = true)) ∧
    (∀ e ∈ (s.after operations).stored, e.Throughout Expr.Settled) ∧
    (∀ (renderer : Renderer) (path : String),
      (s.after operations).render renderer = .error (.unresolved path) →
      ∃ kind edit result,
        renderer.overrides.get? renderer.dialect kind = some (.custom (.edited edit)) ∧
        result ≠ .error (.unresolved path) ∧ edit result = .error (.unresolved path)) ∧
    ∀ (d : Dialect) (path : String),
      (s.after operations).render (Renderer.standard d) ≠ .error (.unresolved path) := by
  have settled : ∀ e ∈ (s.after operations).stored, e.Throughout Expr.Settled := by
    obtain ⟨table, rfl⟩ := eq_of_ofTable base
    refine after_induction (P := fun s => ∀ e ∈ s.stored, e.Throughout Expr.Settled) plain
      (fun h step => settled_stable.step step h) ?_
    simp [stored]
  refine ⟨?_, settled, fun renderer path => exists_override_of_render settled, ?_⟩
  · intro mode e q r t run
    obtain ⟨answers, -, -, summary⟩ := (follows_resolve mode e).ok run
    exact ⟨fun n outside => settled_resolve run outside, summary⟩
  · intro d path run
    obtain ⟨kind, edit, result, found, -⟩ := exists_override_of_render settled run
    exact Overrides.allowed_of_standard found

/-- Operations of which the last two fail: they would sum sums, and give a call too few arguments. -/
def sumsOfPay : List Operation :=
  [.annotate "total" (.aggregateOf .sum (.field "pay")),
    .filter (.compare (.field "total") .gt (.literal (.integer 10) none)),
    .summarize "most" (.aggregateOf .max (.field "boss.pay")),
    .annotate "sums" (.aggregateOf .sum (.field "total")),
    .orderBy [.call { CallHead.ofFunction "F" with arity := some 2 } [.field "pay"]]]

/-- Only what resolves is stored, and all of it is settled. -/
theorem resolution_complete_sumsOfPay :
    (allStaff.after sumsOfPay).stored.length = 3 ∧
      (∀ e ∈ (allStaff.after sumsOfPay).stored, e.Throughout Expr.Settled) ∧
      ∀ path, (allStaff.after sumsOfPay).render (Renderer.standard .mysql) ≠
        .error (.unresolved path) := by
  obtain ⟨-, settled, -, reports⟩ := resolution_complete ofTable_allStaff sumsOfPay (by decide)
  exact ⟨rfl, settled, reports .mysql⟩

end BoundSql.Select
