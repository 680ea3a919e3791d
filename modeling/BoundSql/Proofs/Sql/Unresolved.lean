import BoundSql.Proofs.Except
import BoundSql.Proofs.Expr.Within
import BoundSql.Rendering

/-!
# Unresolved paths

Rendering a tree reports a path as unresolved only when the path stands in the tree as a field
(`within_of_render`): types and templates have errors of their own, and every other node passes on
those of its sources.
-/

namespace BoundSql

variable {e : Expr} {path : String}

namespace Expr

/-- A shared type does not ask for an unresolved field unless one of the expressions does. -/
lemma sharedType_ne_unresolved {es : List Expr}
    (types : ∀ e ∈ es, e.type? ≠ .error (.unresolved path)) (found : Option SqlType) :
    sharedType found es ≠ .error (.unresolved path) := by
  induction es generalizing found with
  | nil => exact nofun
  | cons e es ih =>
    obtain ⟨first, rest⟩ := List.forall_mem_cons.1 types
    intro run
    rw [sharedType] at run
    rcases except_bind_error run with run | ⟨type, -, run⟩
    · exact first run
    · split at run
      · exact ih rest _ run
      · exact ih rest _ run
      · split at run
        · exact ih rest _ run
        · cases run

/-- The type of an aggregate does not ask for an unresolved field unless one of its sources does. -/
lemma sourceType_ne_unresolved {kind : AggregateKind} {es : List Expr}
    (types : ∀ e ∈ es, e.type? ≠ .error (.unresolved path)) :
    sourceType kind es ≠ .error (.unresolved path) := by
  intro run
  unfold sourceType at run
  split at run
  · exact types _ (List.mem_singleton_self _) run
  · cases run

/-- Inferring a type does not ask whether fields are resolved. -/
lemma type?_ne_unresolved (e : Expr) (path : String) : e.type? ≠ .error (.unresolved path) := by
  induction e using Expr.induction with
  | node e ih =>
    intro run
    cases e with
    | field | column | literal | star | sorted | compare | logic | typed =>
      rw [type?] at run
      cases run
    | ref name source =>
      rw [type?] at run
      exact ih source (List.mem_singleton_self _) run
    | arith left op right declared =>
      rw [type?.eq_def] at run
      cases declared with
      | some => cases run
      | none =>
        rcases except_bind_error run with run | ⟨a, -, run⟩
        · exact ih left List.mem_cons_self run
        · rcases except_bind_error run with run | ⟨b, -, run⟩
          · exact ih right (List.mem_cons_of_mem _ (List.mem_singleton_self _)) run
          · unfold ArithOp.resultType at run
            split at run
            · split at run <;> cases run
            · cases run
            · cases run
    | call head args =>
      rw [type?.eq_def] at run
      dsimp only at run
      split at run
      · cases run
      · exact sharedType_ne_unresolved ih none run
    | aggregate kind head args distinct summary =>
      rw [type?.eq_def] at run
      dsimp only at run
      split at run
      · cases run
      -- whatever the kind of aggregate is, only its sources are asked for a type
      · split at run
        · cases run
        · cases run
        · cases run
        · rcases except_bind_error run with run | ⟨type, -, run⟩
          · exact sourceType_ne_unresolved ih run
          · split at run <;> cases run
        · exact sourceType_ne_unresolved ih run
        · exact sourceType_ne_unresolved ih run
        · exact sourceType_ne_unresolved ih run

/-- No type asks for an unresolved field. -/
lemma discard_type?_ne_unresolved (e : Expr) (path : String) :
    (discard e.type? : Except Error PUnit) ≠ .error (.unresolved path) := by
  intro run
  cases typed : e.type? with
  | ok type =>
    rw [typed] at run
    cases run
  | error x =>
    rw [typed] at run
    cases run
    exact type?_ne_unresolved e path typed

end Expr

/-- Templates have errors of their own. -/
lemma Template.render_ne_unresolved (template : String) (context : Dict String) :
    render template context ≠ .error (.unresolved path) := by
  intro run
  rcases except_bind_error run with run | ⟨texts, -, run⟩
  · obtain ⟨piece, -, run⟩ := except_mapM_error run
    unfold Piece.text at run
    split at run
    · cases run
    · split at run <;> cases run
    · cases run
  · cases run

namespace Renderer

variable {r : Renderer} {sources : List (Except Error Fragment)}

/-- A call reports a path when one of its arguments does. -/
lemma mem_of_renderCall {head : CallHead} {function : Option String} {template joiner : String}
    (run : r.renderCall head function template joiner sources = .error (.unresolved path)) :
    .error (.unresolved path) ∈ sources := by
  rcases except_bind_error run with run | ⟨args, -, run⟩
  · obtain ⟨s, mem, run⟩ := except_mapM_error run
    exact run ▸ mem
  · rcases except_bind_error run with run | ⟨sql, -, run⟩
    · exact absurd run (Template.render_ne_unresolved _ _)
    · cases run

/-- What needs two sources reports a path when one of them does. -/
lemma mem_of_bind_bind {α : Type} {a b : Except Error Fragment} {f : Fragment → Fragment → α}
    (run : (do return f (← a) (← b)) = .error (.unresolved path)) :
    .error (.unresolved path) ∈ [a, b] := by
  rcases except_bind_error run with run | ⟨x, -, run⟩
  · exact run ▸ List.mem_cons_self
  · rcases except_bind_error run with run | ⟨y, -, run⟩
    · exact run ▸ List.mem_cons_of_mem a (List.mem_singleton_self b)
    · cases run

/-- Each node reports a path when it is that path, or when one of its sources does. -/
lemma mem_of_renderGeneric (run : r.renderGeneric e sources = .error (.unresolved path)) :
    e = .field path ∨ .error (.unresolved path) ∈ sources := by
  unfold renderGeneric at run
  split at run
  case h_1 =>
    cases run
    exact .inl rfl
  case h_2 | h_4 | h_5 => cases run
  case h_3 | h_12 => exact .inr (run ▸ List.mem_singleton_self _)
  case h_6 =>
    rcases except_bind_error run with run | ⟨type, -, run⟩
    · exact absurd run (Expr.discard_type?_ne_unresolved _ path)
    · exact .inr (mem_of_bind_bind run)
  case h_7 | h_8 => exact .inr (mem_of_renderCall run)
  case h_9 =>
    rcases except_bind_error run with run | ⟨a, -, run⟩
    · exact .inr (run ▸ List.mem_singleton_self _)
    · cases run
  case h_10 => exact .inr (mem_of_bind_bind run)
  case h_11 =>
    rcases except_bind_error run with run | ⟨parts, -, run⟩
    · obtain ⟨s, mem, run⟩ := except_mapM_error run
      exact .inr (run ▸ mem)
    · cases run
  case h_13 => cases run

/-- So does a node under a rule of its dialect, unless the rule makes something else into
this report. -/
lemma mem_of_renderCustom {rule : CustomRule}
    (own : ∀ edit result, rule = .edited edit → edit result = .error (.unresolved path) →
      result = .error (.unresolved path))
    (run : r.renderCustom rule e sources = .error (.unresolved path)) :
    e = .field path ∨ .error (.unresolved path) ∈ sources := by
  unfold renderCustom at run
  split at run
  case h_1 => exact mem_of_renderGeneric (own _ _ rfl run)
  case h_2 =>
    rcases except_bind_error run with run | ⟨type, -, run⟩
    · exact absurd run (Expr.discard_type?_ne_unresolved _ path)
    · exact .inr (mem_of_bind_bind run)
  case h_3 =>
    rcases except_bind_error run with run | ⟨key, -, run⟩
    · exact .inr (run ▸ List.mem_singleton_self _)
    · cases run
  case h_4 => exact mem_of_renderGeneric run

/-- A template fails for an unresolved field at the node or in one of its sources only. -/
lemma mem_of_renderTemplate {function template joiner : Option String}
    (run : r.renderTemplate function template joiner e sources = .error (.unresolved path)) :
    e = .field path ∨ .error (.unresolved path) ∈ sources := by
  unfold renderTemplate at run
  split at run
  · exact .inr (mem_of_renderCall run)
  · exact .inr (mem_of_renderCall run)
  · exact mem_of_renderGeneric run

/-- A node fails for an unresolved field at itself or in one of its sources only, if no edit brings such
a failure in. -/
lemma mem_of_renderNode
    (own : ∀ kind edit result, r.overrides.get? r.dialect kind = some (.custom (.edited edit)) →
      edit result = .error (.unresolved path) → result = .error (.unresolved path))
    (run : r.renderNode e sources = .error (.unresolved path)) :
    e = .field path ∨ .error (.unresolved path) ∈ sources := by
  unfold renderNode at run
  split at run
  · exact mem_of_renderGeneric run
  · cases run
  · rename_i rule found
    refine mem_of_renderCustom (fun edit result eq => ?_) run
    exact own e.kind edit result (eq ▸ found)
  · exact mem_of_renderTemplate run

/-- A path that is reported as unresolved stands in the tree, unless an override makes another result
into this report. -/
theorem within_of_render
    (own : ∀ kind edit result, r.overrides.get? r.dialect kind = some (.custom (.edited edit)) →
      edit result = .error (.unresolved path) → result = .error (.unresolved path))
    (run : r.render e = .error (.unresolved path)) : (Expr.field path).Within e := by
  induction e using Expr.induction with
  | node e ih =>
    rw [render_eq] at run
    rcases mem_of_renderNode own run with rfl | mem
    · exact .root
    · obtain ⟨s, source, run⟩ := List.mem_map.1 mem
      exact .source source (ih s source run)

end Renderer

end BoundSql
