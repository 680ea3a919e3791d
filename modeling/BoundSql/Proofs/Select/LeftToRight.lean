import BoundSql.Proofs.Expr.Filled
import BoundSql.Proofs.Select.Resolution

/-!
# Left to right

Aliases are given to joins in the order in which paths are resolved, so that the order matters.
Resolving a tree is resolving its field paths from left to right and filling it with the answers, and
when it fails it is as if the calls had stopped at one of them (`resolution_left_to_right`). Calls in a
row stop at the first one that fails, so the calls before the last one can be taken to succeed
(`exists_resolveFields_dropLast`).
-/

namespace BoundSql.Select

open Select.Action

/-- What paths in a row do to a query is done by the first few of them, of which only the last one may
fail. -/
lemma exists_resolveFields_dropLast (mode : Resolution) (paths : List String) (s : Select) :
    ∃ done, done <+: paths ∧
      ((resolveFields mode done).on s).2 = ((resolveFields mode paths).on s).2 ∧
      ∃ answers u, (resolveFields mode done.dropLast).on s = (.ok answers, u) := by
  induction paths generalizing s with
  | nil => exact ⟨[], List.prefix_rfl, rfl, [], s, rfl⟩
  | cons path rest ih =>
    rcases on_cases (resolveField mode path) s with ⟨a, t, run⟩ | ⟨x, t, run⟩
    · have single : (resolveFields mode [path]).on s = (.ok [a], t) := by
        rw [resolveFields, on_mapM_cons, run]
        rfl
      obtain ⟨done, start, state, answers, u, before⟩ := ih t
      refine ⟨path :: done, List.cons_prefix_cons.2 ⟨rfl, start⟩, ?_, ?_⟩
      · rw [← List.singleton_append, on_resolveFields_append single, state,
          ← on_resolveFields_append single, List.singleton_append]
      · cases done with
        | nil => exact ⟨[], s, rfl⟩
        | cons next done =>
          rw [List.dropLast_cons_cons, ← List.singleton_append, resolveFields_append, on_bind_ok single,
            on_bind_ok before]
          exact ⟨_, _, rfl⟩
    · -- the calls stop at the first path
      refine ⟨[path], List.prefix_append [path] rest, ?_, [], s, rfl⟩
      rw [resolveFields, resolveFields, on_mapM_cons, on_mapM_cons, run]

/-- When a tree resolves, the query is as after resolving its field paths outside of references one
after another from left to right, and the result is the tree filled with the answers in this order: its
aggregates outside of references are over all rows or not as asked for, and all else of it is the same.
When it does not, the query is as after resolving the first few of these paths, of which all but the
last one resolve. -/
theorem resolution_left_to_right (mode : Resolution) (e : Expr) (s : Select) :
    match (resolve mode e).on s with
    | (.ok r, t) => ∃ answers, (resolveFields mode e.fieldPaths).on s = (.ok answers, t) ∧
        e.fill mode.summarize answers = (r, [])
    | (.error _, t) => ∃ done answers u, done <+: e.fieldPaths ∧
        (resolveFields mode done.dropLast).on s = (.ok answers, u) ∧
        ((resolveFields mode done).on s).2 = t := by
  have follows := follows_resolve mode e
  rcases on_cases (resolve mode e) s with ⟨r, t, run⟩ | ⟨x, t, run⟩
  · rw [run]
    obtain ⟨answers, fields, resolves, -⟩ := follows.ok run
    exact ⟨answers, fields, resolves.fill_eq⟩
  · rw [run]
    obtain ⟨paths, first, rfl⟩ := follows.error run
    obtain ⟨done, start, state, answers, u, before⟩ := exists_resolveFields_dropLast mode paths s
    exact ⟨done, answers, u, start.trans first, before, state⟩

end BoundSql.Select
