import BoundSql.Expr.Typing
import BoundSql.Expr.Sources
import Mathlib.Data.List.Forall2
import Mathlib.Tactic.Lemma

/-!
# Types of nodes over other sources

The type of a node depends on its sources by their types only (`type?_replaceSources`).
-/

namespace BoundSql.Expr

variable {e : Expr} {es es' : List Expr}

/-- Lists of the same types have the same type in common. -/
lemma sharedType_eq_of_types (h : List.Forall₂ (fun e e' => e.type? = e'.type?) es es')
    (found : Option SqlType) : sharedType found es = sharedType found es' := by
  induction h generalizing found with
  | nil => rfl
  | cons first _ ih => simp only [sharedType, first, ih]

/-- The type that an aggregate takes from its sources depends on their types only. -/
lemma sourceType_eq_of_types (kind : AggregateKind)
    (h : List.Forall₂ (fun e e' => e.type? = e'.type?) es es') :
    sourceType kind es = sourceType kind es' := by
  have length := h.length_eq
  cases h with
  | nil => rfl
  | cons first rest =>
    cases rest with
    | nil => exact first
    | cons => simp only [sourceType, length]

/-- A node over sources of the same types has the same type. -/
lemma type?_replaceSources (alike : List.Forall₂ (fun s s' => s.type? = s'.type?) e.sources es) :
    (e.replaceSources es).type? = e.type? := by
  cases e with
  | ref =>
    obtain _ | ⟨source, ⟨⟩⟩ := alike
    exact source.symm
  | sorted | typed =>
    obtain _ | ⟨-, ⟨⟩⟩ := alike
    rfl
  | compare =>
    obtain _ | ⟨-, _ | ⟨-, ⟨⟩⟩⟩ := alike
    rfl
  | arith =>
    obtain _ | ⟨left, _ | ⟨right, ⟨⟩⟩⟩ := alike
    simp only [replaceSources, type?, left, right]
  | call head args =>
    have shared : sharedType none args = sharedType none es := sharedType_eq_of_types alike none
    simp only [replaceSources, type?, shared]
  | aggregate kind head args =>
    have source : sourceType kind args = sourceType kind es := sourceType_eq_of_types kind alike
    simp only [replaceSources, type?, source]
  | _ => rfl

end BoundSql.Expr
