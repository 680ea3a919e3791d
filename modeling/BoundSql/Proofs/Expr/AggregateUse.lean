import BoundSql.Expr.Aggregation
import BoundSql.Expr.Functions
import BoundSql.Proofs.Expr.Places
import BoundSql.Proofs.KeyOrder

/-!
# The search for aggregates

A node is a use of an aggregate of the query when it refers to an aggregating expression under one of
their names, or is equal to one of them. The search walks the nodes in the order of `placedNodes` and
stops at the first use (`findAggregate?_eq_findSome?`), so that what it answers is the place of that use
and the name it goes by (`findAggregate?_exact`).
-/

namespace BoundSql.Expr

/-- The node uses one of the aggregates. -/
def IsUse (existing : Dict Expr) : Expr → Prop
  | .ref name source =>
    existing.contains name = true ∧ ∃ n : Expr, n.Within source ∧ n.isAggregate = true
  | .aggregate kind head args distinct summary =>
    ∃ name a, existing.get? name = some a ∧ (a == .aggregate kind head args distinct summary) = true
  | _ => False

/-- The name that a use goes by: that of a reference, and of the names of aggregates equal to the node
the one that is least in the order of bytes. -/
def GoesBy (existing : Dict Expr) (name : String) : Expr → Prop
  | .ref own _ => name = own
  | e =>
    (∃ a, existing.get? name = some a ∧ (a == e) = true) ∧
      ∀ other a, existing.get? other = some a → (a == e) = true → ¬ utf8 other < utf8 name

variable {existing : Dict Expr} {e : Expr} {name : String}

/-- An aggregate stands in every use. -/
lemma IsUse.exists_aggregate (h : e.IsUse existing) :
    ∃ n : Expr, n.Within e ∧ n.isAggregate = true := by
  cases e with
  | ref own source =>
    obtain ⟨-, n, within, isAggregate⟩ := h
    exact ⟨n, .source List.mem_cons_self within, isAggregate⟩
  | aggregate => exact ⟨_, .root, rfl⟩
  | _ => cases h

/-- The name found for a node is the one it goes by, and only uses have one. -/
lemma usedAggregate?_eq_some_iff :
    e.usedAggregate? existing = some name ↔ e.IsUse existing ∧ e.GoesBy existing name := by
  cases e with
  | ref own source =>
    rw [usedAggregate?, IsUse, GoesBy, ← containsAggregate_iff]
    split_ifs with h
    · rw [Bool.and_eq_true] at h
      rw [Option.some_inj]
      exact ⟨fun eq => ⟨h.symm, eq.symm⟩, fun h => h.2.symm⟩
    · rw [Bool.and_eq_true] at h
      exact iff_of_false not_false fun used => h used.1.symm
  | aggregate kind head args distinct summary =>
    let isEqual (a : Expr) : Bool := a == .aggregate kind head args distinct summary
    have found_iff (name : String) (a : Expr) :
        existing.entries.find? (fun entry => isEqual entry.2) = some (name, a) ↔
          existing.get? name = some a ∧ isEqual a = true ∧
            ∀ other b, existing.get? other = some b → isEqual b = true → ¬ utf8 other < utf8 name :=
      Dict.find?_entries_eq_some_iff
    rw [usedAggregate?, IsUse, GoesBy, Option.map_eq_some_iff]
    · constructor
      · rintro ⟨⟨name, a⟩, found, rfl⟩
        obtain ⟨get, equal, least⟩ := (found_iff name a).1 found
        exact ⟨⟨name, a, get, equal⟩, ⟨a, get, equal⟩, least⟩
      · rintro ⟨-, ⟨a, get, equal⟩, least⟩
        exact ⟨(name, a), (found_iff name a).2 ⟨get, equal, least⟩, rfl⟩
    · rintro _ _ ⟨⟩
  | _ => exact iff_of_false (Option.some_ne_none _).symm fun used => used.1

/-- No name is found for the nodes that are not uses. -/
lemma usedAggregate?_eq_none_iff : e.usedAggregate? existing = none ↔ ¬ e.IsUse existing := by
  constructor
  · intro none use
    cases e with
    | ref own source =>
      have used := usedAggregate?_eq_some_iff.2 ⟨use, rfl⟩
      rw [none] at used
      cases used
    | aggregate kind head args distinct summary =>
      obtain ⟨name, a, get, equal⟩ := use
      rw [usedAggregate?, Option.map_eq_none_iff, List.find?_eq_none] at none
      exact none _ (Dict.mem_entries_iff.2 get) equal
    | _ => exact use
  · intro other
    cases used : e.usedAggregate? existing with
    | none => rfl
    | some name => exact absurd (usedAggregate?_eq_some_iff.1 used).1 other

/-- The use of an aggregate that a node at a place is, if it is one. -/
def useAt? (existing : Dict Expr) (o : List Nat × Expr) : Option AggregateUse :=
  (o.2.usedAggregate? existing).map fun name => ⟨name, o.1⟩

/-- The use found at an occurrence has the place of the occurrence and the name that its
node goes by. -/
lemma useAt?_eq_some_iff {o : List Nat × Expr} {use : AggregateUse} :
    useAt? existing o = some use ↔
      use.path = o.1 ∧ o.2.IsUse existing ∧ o.2.GoesBy existing use.name := by
  rw [useAt?, Option.map_eq_some_iff, ← usedAggregate?_eq_some_iff]
  constructor
  · rintro ⟨name, used, rfl⟩
    exact ⟨rfl, used⟩
  · rintro ⟨path, used⟩
    exact ⟨use.name, used, by rw [← path]⟩

/-- The first use in a row of trees is the first one among their nodes. -/
lemma firstUse_eq_findSome? {es : List Expr} (i : Nat)
    (each : ∀ e ∈ es, e.findAggregate? existing = e.placedNodes.findSome? (useAt? existing)) :
    firstUse i (es.map (findAggregate? existing)) =
      (inRow i (es.map placedNodes)).findSome? (useAt? existing) := by
  induction es generalizing i with
  | nil => rfl
  | cons e es ih =>
    obtain ⟨first, rest⟩ := List.forall_mem_cons.1 each
    -- below a position the places go on from it
    have below : (e.placedNodes.map fun o => (i :: o.1, o.2)).findSome? (useAt? existing) =
        (e.findAggregate? existing).map fun use => { use with path := i :: use.path } := by
      rw [first, List.findSome?_map, List.map_findSome?]
      congr 1
      funext o
      simp only [Function.comp_apply, useAt?, Option.map_map]
      rfl
    rw [List.map_cons, List.map_cons, inRow, List.findSome?_append, below]
    cases e.findAggregate? existing with
    | some use => rfl
    | none => exact ih (i + 1) rest

/-- The search finds the first use among the nodes. -/
lemma findAggregate?_eq_findSome? (existing : Dict Expr) (e : Expr) :
    e.findAggregate? existing = e.placedNodes.findSome? (useAt? existing) := by
  induction e using Expr.induction with
  | node e ih =>
    rw [findAggregate?_eq, placedNodes_eq, List.findSome?_cons, useAt?,
      ← firstUse_eq_findSome? 0 ih]
    cases e.usedAggregate? existing <;> rfl

/-- A tree in which a use is found contains an aggregate. -/
lemma containsAggregate_of_findAggregate? (h : (e.findAggregate? existing).isSome = true) :
    e.containsAggregate = true := by
  obtain ⟨use, found⟩ := Option.isSome_iff_exists.1 h
  rw [findAggregate?_eq_findSome?] at found
  obtain ⟨⟨place, n⟩, mem, used⟩ := List.exists_of_findSome?_eq_some found
  obtain ⟨a, inside, isAggregate⟩ := (useAt?_eq_some_iff.1 used).2.1.exists_aggregate
  have within := within_iff_mem_placedNodes.2 ⟨place, mem⟩
  exact (containsAggregate_iff e).2 ⟨a, inside.trans within, isAggregate⟩

/-- The search finds nothing exactly when no node of the tree is a use. It answers with a place and a
name exactly when these are the ones of the first use, nodes before their sources and sources from left
to right: the place leads to that node, and the name is the one it goes by. -/
theorem findAggregate?_exact (existing : Dict Expr) (e : Expr) :
    (e.findAggregate? existing = none ↔ ∀ n : Expr, n.Within e → ¬ n.IsUse existing) ∧
    ∀ use, e.findAggregate? existing = some use ↔
      ∃ n before after, e.placedNodes = before ++ (use.path, n) :: after ∧
        (∀ o ∈ before, ¬ o.2.IsUse existing) ∧
        e.nodeAt? use.path = some n ∧ n.IsUse existing ∧ n.GoesBy existing use.name := by
  rw [findAggregate?_eq_findSome?]
  have none_iff {o : List Nat × Expr} : useAt? existing o = none ↔ ¬ o.2.IsUse existing :=
    Option.map_eq_none_iff.trans usedAggregate?_eq_none_iff
  constructor
  · rw [List.findSome?_eq_none_iff]
    constructor
    · intro none n within
      obtain ⟨place, mem⟩ := within_iff_mem_placedNodes.1 within
      exact none_iff.1 (none _ mem)
    · intro unused o mem
      exact none_iff.2 (unused o.2 (within_iff_mem_placedNodes.2 ⟨o.1, mem⟩))
  · intro use
    rw [List.findSome?_eq_some_iff]
    constructor
    · rintro ⟨before, ⟨place, n⟩, after, eq, used, unused⟩
      obtain ⟨rfl, used⟩ := useAt?_eq_some_iff.1 used
      refine ⟨n, before, after, eq, fun o mem => none_iff.1 (unused o mem), ?_, used⟩
      apply mem_placedNodes_iff.1
      rw [eq]
      exact List.mem_append_right _ List.mem_cons_self
    · rintro ⟨n, before, after, eq, unused, -, used⟩
      refine ⟨before, (use.path, n), after, eq, useAt?_eq_some_iff.2 ⟨rfl, used⟩, ?_⟩
      exact fun o mem => none_iff.2 (unused o mem)

/-- Aggregates of a query, one of them under two names. -/
def costs : Dict Expr :=
  let pay := Expr.column "T2" "pay" none
  (((∅ : Dict Expr).insert "total" (.aggregateOf .sum pay)).insert "cost" (.aggregateOf .sum pay)).insert
    "top" (.aggregateOf .max pay)

/-- The sum of pay, which is reached through a reference that the query does not know, is the first use
and goes by the lesser of its names. The reference to the greatest pay comes later. -/
theorem findAggregate?_exact_costs :
    let sum := Expr.aggregateOf .sum (.column "T2" "pay" none)
    let e := Expr.compare (.arith (.column "T2" "bonus" none) .add (.ref "spent" sum) none) .lt
      (.ref "top" (.aggregateOf .max (.column "T2" "pay" none)))
    e.findAggregate? costs = some ⟨"cost", [0, 1, 0]⟩ ∧
      ∃ n before after, e.placedNodes = before ++ ([0, 1, 0], n) :: after ∧
        (∀ o ∈ before, ¬ o.2.IsUse costs) ∧
        e.nodeAt? [0, 1, 0] = some n ∧ n.IsUse costs ∧ n.GoesBy costs "cost" := by
  intro sum e
  have found : e.findAggregate? costs = some ⟨"cost", [0, 1, 0]⟩ := by decide
  exact ⟨found, ((findAggregate?_exact costs e).2 _).1 found⟩

end BoundSql.Expr
