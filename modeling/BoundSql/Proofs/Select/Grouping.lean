import BoundSql.Proofs.Expr.Bare
import BoundSql.Proofs.Select.Steps

/-!
# Grouping

A grouped statement groups by the columns that it uses outside of aggregates, and by nothing else
(`groupBy_columns`). That the keys are columns is an invariant: what a query stores has no unresolved
fields (`Step.bound`). That they stand in the order of their first uses is a property of `eraseDups`
on a list in the order of the places (`eraseDups_occurrences`).
-/

namespace BoundSql

/-- Columns are compared by all that they are. -/
lemma Expr.beq_iff_of_isColumn {a b : Expr} (h : a.isColumn = true) (h' : b.isColumn = true) :
    (a == b) = true ↔ a = b := by
  cases a with
  | column =>
    cases b with
    | column =>
      change (_ == _ && _ == _ && _ == _) = true ↔ _
      simp [and_assoc]
    | _ => cases h'
  | _ => cases h

/-- The list has the nodes that stand at some place, each once, and in the order of the first places
where they stand. -/
structure ListsInOrder (nodes : List Expr) (stands : List Nat → Expr → Prop) : Prop where
  mem : ∀ n, n ∈ nodes ↔ ∃ place, stands place n
  nodup : nodes.Nodup
  ordered : nodes.Pairwise fun m n =>
    ∃ place, stands place m ∧ ∀ later, stands later n → place < later

/-- A node that stands before all others comes first. -/
lemma ListsInOrder.cons {nodes : List Expr} {stands others : List Nat → Expr → Prop} {m : Expr}
    {first : List Nat} (h : ListsInOrder nodes others) (here : stands first m)
    (first_lt : ∀ place n, stands place n → n ≠ m → first < place)
    (rest : ∀ place n, others place n ↔ stands place n ∧ n ≠ m) :
    ListsInOrder (m :: nodes) stands where
  mem n := by
    rw [List.mem_cons, h.mem]
    constructor
    · rintro (rfl | ⟨place, stands⟩)
      · exact ⟨first, here⟩
      · exact ⟨place, ((rest place n).1 stands).1⟩
    · rintro ⟨place, stands⟩
      by_cases eq : n = m
      · exact .inl eq
      · exact .inr ⟨place, (rest place n).2 ⟨stands, eq⟩⟩
  nodup := by
    refine List.nodup_cons.2 ⟨fun mem => ?_, h.nodup⟩
    obtain ⟨place, stands⟩ := (h.mem m).1 mem
    exact ((rest place m).1 stands).2 rfl
  -- the first place of the node is before all places of the others
  ordered := by
    have other {n : Expr} (mem : n ∈ nodes) : n ≠ m := by
      obtain ⟨place, stands⟩ := (h.mem n).1 mem
      exact ((rest place n).1 stands).2
    refine List.pairwise_cons.2 ⟨fun n mem => ?_, h.ordered.imp_of_mem fun {a b} _ mem lt => ?_⟩
    · exact ⟨first, here, fun later stands => first_lt later n stands (other mem)⟩
    · obtain ⟨place, stands, lt⟩ := lt
      refine ⟨place, ((rest place a).1 stands).1, fun later stands => lt later ?_⟩
      exact (rest later b).2 ⟨stands, other mem⟩

/-- Removing the duplicates of a list in the order of places lists its nodes in order. -/
lemma listsInOrder_eraseDups {l : List (List Nat × Expr)} (ordered : l.Pairwise (·.1 < ·.1))
    (lawful : ∀ a ∈ l, ∀ b ∈ l, (a.2 == b.2) = true ↔ a.2 = b.2) :
    ListsInOrder (l.map (·.2)).eraseDups fun place n => (place, n) ∈ l := by
  induction length : l.length using Nat.strongRecOn generalizing l with
  | ind size ih =>
    cases l with
    | nil => exact ⟨by simp, .nil, .nil⟩
    | cons first rest =>
      obtain ⟨place, m⟩ := first
      obtain ⟨first_lt, orderedRest⟩ := List.pairwise_cons.1 ordered
      rw [List.map_cons, List.eraseDups_cons, List.filter_map]
      -- the induction goes on with the places of all other nodes
      have shorter : (rest.filter fun b => !b.2 == m).length < size := by
        rw [← length]
        exact Nat.lt_succ_of_le (List.length_filter_le _ rest)
      have others := ih _ shorter (orderedRest.filter _)
        (fun a memA b memB => lawful a (List.mem_cons_of_mem _ (List.mem_of_mem_filter memA))
          b (List.mem_cons_of_mem _ (List.mem_of_mem_filter memB))) rfl
      refine others.cons List.mem_cons_self (fun later n mem other => ?_) fun later n => ?_
      · rcases List.mem_cons.1 mem with eq | mem
        · cases eq
          contradiction
        · exact first_lt (later, n) mem
      · rw [List.mem_filter, List.mem_cons]
        constructor
        · rintro ⟨mem, other⟩
          refine ⟨.inr mem, fun eq => ?_⟩
          have same := (lawful (later, n) (List.mem_cons_of_mem _ mem) (place, m)
            List.mem_cons_self).2 eq
          simp [same] at other
        · rintro ⟨eq | mem, other⟩
          · cases eq
            contradiction
          · refine ⟨mem, ?_⟩
            have differs := mt (lawful (later, n) (List.mem_cons_of_mem _ mem) (place, m)
              List.mem_cons_self).1 other
            simpa using differs

namespace Select

/-- The node is used outside of aggregates at a place of what the statement selects, computes, or
puts into HAVING and ORDER BY. The first position of the place is that of the expression. -/
def UsedAt (s : Select) (place : List Nat) (n : Expr) : Prop :=
  ∃ i rest e, place = i :: rest ∧
    (s.selectList ++ s.computed.map (·.2) ++ s.groupConditions ++ s.order)[i]? = some e ∧
    n.BareAt rest e

/-- No stored expression has a field that is not resolved. -/
def Bound (s : Select) : Prop :=
  ∀ e ∈ s.stored, e.Throughout (·.isField = false)

variable {s t : Select}

/-- Resolving trees without references of their own leaves nothing unresolved. -/
lemma bound_stable : Stable (·.Throughout (·.isRef = false)) (·.isField = false) where
  plain plain := plain
  node _ _ accepts summarize := by rw [Expr.isField_rebound, accepts.field]
  column _ _ _ := rfl
  ref _ _ := rfl
  logic _ _ _ := rfl
  sorted _ _ _ := rfl

/-- Every step with such trees leaves nothing unresolved. -/
lemma Step.bound (step : Step (·.Throughout (·.isRef = false)) s t) (h : s.Bound) : t.Bound :=
  bound_stable.step step h

/-- The uses of columns outside of aggregates, with their places. -/
def uses (s : Select) : List (List Nat × Expr) :=
  Expr.inRow 0 ((s.selectList ++ s.computed.map (·.2) ++ s.groupConditions ++ s.order).map
    Expr.bareOccurrences)

/-- The uses of columns are those at the places of the statement. -/
lemma mem_uses {place : List Nat} {n : Expr} (column : n.isColumn = true) :
    (place, n) ∈ s.uses ↔ s.UsedAt place n := by
  rw [uses, Expr.mem_inRow]
  constructor
  · rintro ⟨i, rest, occurrences, rfl, tree, mem⟩
    rw [List.getElem?_map, Option.map_eq_some_iff] at tree
    obtain ⟨e, found, rfl⟩ := tree
    exact ⟨i, rest, e, by rw [Nat.zero_add], found, (Expr.mem_bareOccurrences (.inl column)).1 mem⟩
  · rintro ⟨i, rest, e, rfl, found, bare⟩
    refine ⟨i, rest, e.bareOccurrences, by rw [Nat.zero_add], ?_, ?_⟩
    · rw [List.getElem?_map, found]
      rfl
    · exact (Expr.mem_bareOccurrences (.inl column)).2 bare

/-- The expressions that a statement groups by have no unresolved fields either. -/
lemma Bound.grouped (h : s.Bound) :
    ∀ e ∈ s.selectList ++ s.computed.map (·.2) ++ s.groupConditions ++ s.order,
      e.Throughout (·.isField = false) := by
  intro e mem
  simp only [List.mem_append] at mem
  rcases mem with ((mem | mem) | mem) | mem
  · exact throughout_selectList h (fun _ _ => rfl) e mem
  · exact h e (by simp only [stored, List.mem_append, mem, true_or, or_true])
  · exact h e (by simp only [stored, List.mem_append, mem, true_or, or_true])
  · exact h e (by simp only [stored, List.mem_append, mem, true_or, or_true])

/-- What a statement uses outside of aggregates are columns when nothing is unresolved. -/
lemma Bound.isColumn_of_mem_uses (h : s.Bound) {place : List Nat} {n : Expr}
    (mem : (place, n) ∈ s.uses) : n.isColumn = true := by
  obtain ⟨i, rest, occurrences, -, tree, mem⟩ := Expr.mem_inRow.1 mem
  obtain ⟨e, used, rfl⟩ := List.mem_map.1 (List.mem_of_getElem? tree)
  rcases Expr.columnar_of_mem_bareOccurrences mem with column | field
  · exact column
  · -- a field would not be resolved
    have bare := (Expr.mem_bareOccurrences (.inr field)).1 mem
    rw [h.grouped e used n bare.within] at field
    contradiction

/-- The keys are the uses without their places and without duplicates. -/
lemma groupKeys_eq (s : Select) : s.groupKeys = (s.uses.map (·.2)).eraseDups := by
  unfold groupKeys uses
  dsimp only
  rw [Expr.map_inRow, List.map_map, List.flatMap_def]
  congr 2
  exact List.map_congr_left fun e _ => (Expr.map_bareOccurrences e).symm

/-- The keys are the columns used outside of aggregates, each once and in the order of first uses. -/
lemma Bound.listsInOrder_groupKeys (h : s.Bound) :
    ListsInOrder s.groupKeys fun place n => n.isColumn = true ∧ s.UsedAt place n := by
  have uses : (fun place n => (place, n) ∈ s.uses) =
      fun place n => n.isColumn = true ∧ s.UsedAt place n := by
    funext place n
    refine propext ⟨fun mem => ?_, fun ⟨column, used⟩ => (mem_uses column).2 used⟩
    have column := h.isColumn_of_mem_uses mem
    exact ⟨column, (mem_uses column).1 mem⟩
  rw [groupKeys_eq, ← uses]
  refine listsInOrder_eraseDups (Expr.pairwise_inRow fun o mem => ?_) fun a memA b memB => ?_
  · obtain ⟨e, -, rfl⟩ := List.mem_map.1 mem
    exact e.pairwise_bareOccurrences
  · exact Expr.beq_iff_of_isColumn (h.isColumn_of_mem_uses memA) (h.isColumn_of_mem_uses memB)

/-- After any operations on trees without references, a grouped statement groups by the columns that
it uses outside of aggregates: a column is a key exactly when it has such a use, no key stands twice,
and the keys are in the order of their first uses. -/
theorem groupBy_columns {c : Catalog} {name : String} (base : ofTable c name = .ok s)
    (operations : List Operation)
    (plain : ∀ operation ∈ operations, ∀ e ∈ operation.trees, e.Throughout (·.isRef = false))
    {keys : List Expr} (grouped : (s.after operations).groupBy = some keys) :
    ListsInOrder keys fun place n => n.isColumn = true ∧ (s.after operations).UsedAt place n := by
  have bound : (s.after operations).Bound := by
    obtain ⟨table, rfl⟩ := eq_of_ofTable base
    exact after_induction plain (fun h step => step.bound h) (by simp [Bound, stored])
  rw [groupBy] at grouped
  split at grouped
  · cases grouped
    exact bound.listsInOrder_groupKeys
  · cases grouped

/-- Operations that count people by their chief and themselves. -/
def headcount : List Operation :=
  [.annotate "number" (.aggregateOf .count (.field "pay")),
    .setColumns [.field "boss.name", .upper (.field "boss.name")],
    .annotate "self" (.lower (.field "name")),
    .orderBy [.field "self", .field "number"]]

/-- A column that is used twice is grouped by once, and one under an aggregate is not. -/
theorem groupBy_columns_headcount :
    (allStaff.after headcount).groupBy =
      some [.column "T3" "name" (some .text), .column "T2" "name" (some .text)] ∧
    ListsInOrder [.column "T3" "name" (some .text), .column "T2" "name" (some .text)]
      fun place n => n.isColumn = true ∧ (allStaff.after headcount).UsedAt place n := by
  refine ⟨rfl, ?_⟩
  exact groupBy_columns ofTable_allStaff headcount (by decide) rfl

end Select

end BoundSql
