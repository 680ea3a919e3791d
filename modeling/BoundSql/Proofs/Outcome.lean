import Mathlib.Data.List.Basic
import Mathlib.Tactic.Lemma

/-!
# Outcomes

Computations that can fail and keep a state. `outcome_bind` takes the outcome of a sequence apart: a
failure leaves the state as the failed part left it. `Calls` is a row of calls that all succeed; a row
of computations either is one, or comes to an end at the first call that fails (`calls_cases`).
-/

namespace BoundSql

variable {σ ε α β : Type}

/-- What a computation gives, and the state it leaves. -/
def outcome (action : ExceptT ε (StateM σ) α) (s : σ) : Except ε α × σ :=
  action.run.run s

/-- Calls for the elements of a list in order, all of which succeed: the state before the first one, the
elements, what the calls give for them, and the state after the last one. -/
inductive Calls (f : α → ExceptT ε (StateM σ) β) : σ → List α → List β → σ → Prop where
  | nil {s} : Calls f s [] [] s
  | cons {s t u a b l bs} : outcome (f a) s = (.ok b, t) → Calls f t l bs u →
      Calls f s (a :: l) (b :: bs) u

/-- One computation after another. -/
lemma outcome_bind (action : ExceptT ε (StateM σ) α) (f : α → ExceptT ε (StateM σ) β) (s : σ) :
    outcome (action >>= f) s = match outcome action s with
      | (.ok a, t) => outcome (f a) t
      | (.error x, t) => (.error x, t) := by
  simp only [outcome, ExceptT.run_bind, StateT.run_bind]
  generalize (ExceptT.run action).run s = run
  obtain ⟨result, t⟩ := run
  cases result <;> rfl

variable {f : α → ExceptT ε (StateM σ) β} {l : List α} {bs : List β} {s t u : σ}

/-- There is one result for each call. -/
lemma Calls.length_eq (calls : Calls f s l bs t) : bs.length = l.length := by
  induction calls with
  | nil => rfl
  | cons _ _ ih => rw [List.length_cons, List.length_cons, ih]

/-- Computations in a row give what they give one by one. -/
lemma Calls.outcome_mapM (calls : Calls f s l bs t) : outcome (l.mapM f) s = (.ok bs, t) := by
  induction calls with
  | nil => rfl
  | cons first _ ih =>
    rw [List.mapM_cons, outcome_bind, first]
    dsimp only
    rw [outcome_bind, ih]
    rfl

/-- They come to an end with the first one that fails. -/
lemma Calls.outcome_mapM_error {a : α} {x : ε} (calls : Calls f s l bs t)
    (failed : outcome (f a) t = (.error x, u)) (after : List α) :
    outcome ((l ++ a :: after).mapM f) s = (.error x, u) := by
  induction calls with
  | nil => rw [List.nil_append, List.mapM_cons, outcome_bind, failed]
  | cons first _ ih =>
    rw [List.cons_append, List.mapM_cons, outcome_bind, first]
    dsimp only
    rw [outcome_bind, ih failed]

/-- All calls succeed, or there is a first one that fails. -/
lemma calls_cases (f : α → ExceptT ε (StateM σ) β) (l : List α) (s : σ) :
    (∃ bs t, Calls f s l bs t) ∨ ∃ before a after bs t x u, l = before ++ a :: after ∧
      Calls f s before bs t ∧ outcome (f a) t = (.error x, u) := by
  induction l generalizing s with
  | nil => exact .inl ⟨[], s, .nil⟩
  | cons a l ih =>
    cases first : outcome (f a) s with
    | mk result t =>
      cases result with
      | error x => exact .inr ⟨[], a, l, [], s, x, t, rfl, .nil, first⟩
      | ok b =>
        rcases ih t with ⟨bs, u, calls⟩ | ⟨before, a', after, bs, u, x, v, rfl, calls, failed⟩
        · exact .inl ⟨b :: bs, u, .cons first calls⟩
        · exact .inr ⟨a :: before, a', after, b :: bs, u, x, v, rfl, .cons first calls, failed⟩

end BoundSql
