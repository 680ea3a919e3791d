import BoundSql.Expr.Functions
import BoundSql.Proofs.Expr.Sources
import BoundSql.Proofs.Outcome

/-!
# Replaced sources

The sources of a node can be read and replaced as the laws of a lens ask for (`withSources_lens`): they
are what was put in their place last, and all else of the node is kept. A node that was read from a
description can hold another number of sources than it takes, and is the one thing that cannot be put
back.

Replacing each source by what a function gives for it is the same as calling the function for the
sources in order and then replacing all of them (`mapSourcesM_calls`). The function may fail and keep a
state.
-/

namespace BoundSql.Expr

variable {e : Expr} {xs ys : List Expr}

/-- A node over as many sources as it takes has these, however many it held before. -/
lemma sources_replaceSources_of_arity (length : xs.length = e.arity) :
    (e.replaceSources xs).sources = xs := by
  cases e with
  | call | aggregate => rfl
  | _ => exact sources_replaceSources length

/-- With as many sources as it asks for, a node keeps its arity. -/
lemma arity_replaceSources_of_arity (length : xs.length = e.arity) :
    (e.replaceSources xs).arity = e.arity := by
  cases e with
  | call head args =>
    rw [replaceSources, arity, arity]
    cases declared : head.arity with
    | none =>
      rw [arity, declared] at length
      exact length
    | some n => rfl
  | aggregate => rfl
  | _ => exact arity_replaceSources length

/-- Nothing of the sources that a node held before is left in it. -/
lemma replaceSources_replaceSources_of_arity (length : xs.length = e.arity)
    (length' : ys.length = e.arity) :
    (e.replaceSources xs).replaceSources ys = e.replaceSources ys := by
  cases e with
  | call | aggregate => rfl
  | _ => exact replaceSources_replaceSources length length'

/-- All else of the node is left. -/
lemma replaceSources_replaceSources_sources (length : xs.length = e.arity) :
    (e.replaceSources xs).replaceSources e.sources = e := by
  cases e with
  | call | aggregate => rfl
  | _ => exact (replaceSources_replaceSources length rfl).trans (replaceSources_sources _)

/-- Sources are put into a node when their number is its arity, and refused with both numbers
otherwise. -/
lemma withSources_eq (e : Expr) (xs : List Expr) :
    e.withSources xs = if xs.length = e.arity then .ok (e.replaceSources xs)
      else .error (.sourceCount e.kind e.arity xs.length) := by
  rw [withSources, expectSources]
  split <;> rfl

/-- Sources go into a node just when their number is its arity. -/
lemma withSources_eq_ok_iff {r : Expr} :
    e.withSources xs = .ok r ↔ xs.length = e.arity ∧ e.replaceSources xs = r := by
  rw [withSources_eq]
  split
  · rename_i length
    rw [Except.ok.injEq, and_iff_right length]
  · rename_i length
    exact iff_of_false nofun fun h => length h.1

/-- As many sources as a node takes can replace those it holds, and any other number of them is refused.
The new node has these sources in their order, and is of the same kind and arity; with the old sources
in their place it would be the old node. A second replacement does what it would have done without the
first one. The sources of a node can be put back into it exactly when they are as many as it takes. -/
theorem withSources_lens (e : Expr) (xs : List Expr) :
    ((∃ r, e.withSources xs = .ok r) ↔ xs.length = e.arity) ∧
    (xs.length ≠ e.arity → e.withSources xs = .error (.sourceCount e.kind e.arity xs.length)) ∧
    (∀ r, e.withSources xs = .ok r →
      r.sources = xs ∧ r.kind = e.kind ∧ r.arity = e.arity ∧ r.replaceSources e.sources = e ∧
      ∀ ys, r.withSources ys = e.withSources ys) ∧
    (e.withSources e.sources = .ok e ↔ e.checkArity = .ok ()) := by
  refine ⟨?_, fun other => ?_, fun r replaced => ?_, ?_⟩
  · constructor
    · rintro ⟨r, replaced⟩
      exact (withSources_eq_ok_iff.1 replaced).1
    · intro length
      exact ⟨_, withSources_eq_ok_iff.2 ⟨length, rfl⟩⟩
  · rw [withSources_eq, if_neg other]
  · obtain ⟨length, rfl⟩ := withSources_eq_ok_iff.1 replaced
    have arity := arity_replaceSources_of_arity length
    have kind := kind_replaceSources e xs
    refine ⟨sources_replaceSources_of_arity length, kind, arity,
      replaceSources_replaceSources_sources length, fun ys => ?_⟩
    rw [withSources_eq, withSources_eq, arity, kind]
    split
    · rename_i length'
      rw [replaceSources_replaceSources_of_arity length length']
    · rfl
  · rw [withSources_eq_ok_iff, checkArity_eq_ok_iff, replaceSources_sources,
      and_iff_left rfl]

/-- A sum that was read without a source takes one, and is not to be had back. -/
theorem withSources_lens_emptySum :
    let empty := Expr.aggregate .sum (.ofAggregate .sum) [] false false
    let pay := Expr.column "T2" "pay" none
    empty.withSources [] = .error (.sourceCount "Sum" 1 0) ∧
      empty.withSources [pay] = .ok (.aggregateOf .sum pay) ∧
      (Expr.aggregateOf .sum pay).replaceSources [] = empty ∧
      (Expr.aggregateOf .sum pay).withSources [] = .error (.sourceCount "Sum" 1 0) := by
  intro empty pay
  obtain ⟨-, refused, -, -⟩ := withSources_lens empty []
  obtain ⟨-, -, replaced, -⟩ := withSources_lens empty [pay]
  have sum : empty.withSources [pay] = .ok (.aggregateOf .sum pay) := rfl
  obtain ⟨-, -, -, back, overwritten⟩ := replaced _ sum
  have unfit := refused (by decide)
  exact ⟨unfit, sum, back, (overwritten []).trans unfit⟩

variable {σ ε : Type}

/-- A node over what calls give is the node rebuilt by running them. -/
lemma mapSourcesM_eq (f : Expr → ExceptT ε (StateM σ) Expr) (e : Expr) :
    e.mapSourcesM f = do return e.replaceSources (← e.sources.mapM f) := by
  rw [mapSourcesM, rebuild_eq e (List.length_map f), List.mapM_map]
  rfl

/-- For a node that holds as many sources as it takes, replacing each source by what a function gives
for it calls the function for the sources in order. Either all calls succeed, and the result is the node
with what they give in place of its sources; or there is a first one that fails, with which the calls
end, and its failure is the result. -/
theorem mapSourcesM_calls (f : Expr → ExceptT ε (StateM σ) Expr) (s : σ)
    (accepted : e.checkArity = .ok ()) :
    (∀ rs t, Calls f s e.sources rs t →
      ∃ r, e.withSources rs = .ok r ∧ outcome (e.mapSourcesM f) s = (.ok r, t)) ∧
    (∀ before source after rs t x u, e.sources = before ++ source :: after →
      Calls f s before rs t → outcome (f source) t = (.error x, u) →
      outcome (e.mapSourcesM f) s = (.error x, u)) ∧
    ((∃ rs t, Calls f s e.sources rs t) ∨
      ∃ before source after rs t x u, e.sources = before ++ source :: after ∧
        Calls f s before rs t ∧ outcome (f source) t = (.error x, u)) := by
  refine ⟨fun rs t calls => ?_, fun before source after rs t x u sources calls failed => ?_,
    calls_cases f e.sources s⟩
  · have length := calls.length_eq.trans (checkArity_eq_ok_iff.1 accepted)
    refine ⟨_, withSources_eq_ok_iff.2 ⟨length, rfl⟩, ?_⟩
    rw [mapSourcesM_eq, outcome_bind, calls.outcome_mapM]
    rfl
  · rw [mapSourcesM_eq, sources, outcome_bind, calls.outcome_mapM_error failed after]

/-- Remembers the trees it was called for, and fails for field paths. -/
def visit (e : Expr) : ExceptT String (StateM (List Expr)) Expr := do
  modify (· ++ [e])
  match e with
  | .field path => throw path
  | e => return .typed e .integer

/-- The operands of a sum are replaced from left to right. Of the three parts of a predicate the second
one cannot be replaced, and the third one is not looked at. -/
theorem mapSourcesM_calls_visit :
    let one := Expr.literal (.integer 1) none
    let sum := Expr.arith one .add .star none
    let parts := Expr.logic .and [one, .field "pay", .star] false
    sum.checkArity = .ok () ∧ parts.checkArity = .ok () ∧
      outcome (sum.mapSourcesM visit) [] =
        (.ok (.arith (.typed one .integer) .add (.typed .star .integer) none), [one, .star]) ∧
      outcome (parts.mapSourcesM visit) [] = (.error "pay", [one, .field "pay"]) := by
  intro one sum parts
  have sumAccepted : sum.checkArity = .ok () := rfl
  have partsAccepted : parts.checkArity = .ok () := rfl
  obtain ⟨all, -, -⟩ := mapSourcesM_calls visit [] sumAccepted
  obtain ⟨-, stops, -⟩ := mapSourcesM_calls visit [] partsAccepted
  obtain ⟨r, replaced, run⟩ := all [.typed one .integer, .typed .star .integer] [one, .star]
    (.cons rfl (.cons rfl .nil))
  cases replaced
  exact ⟨sumAccepted, partsAccepted, run,
    stops [one] (.field "pay") [.star] _ _ _ _ rfl (.cons rfl .nil) rfl⟩

end BoundSql.Expr
