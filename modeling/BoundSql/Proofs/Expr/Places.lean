import BoundSql.Proofs.Expr.Bare

/-!
# Places of nodes

A place is the list of the positions among the sources that lead from the root to a node
(`nodeAt?`). `placedNodes` lists the nodes of a tree with their places in the order in which a search
meets them: each node before those of its sources, and the sources from left to right.
-/

namespace BoundSql.Expr

/-- The node that is reached by following the positions from the root. -/
def nodeAt? (place : List Nat) (e : Expr) : Option Expr :=
  place.foldlM (fun n i => n.sources[i]?) e

/-- All nodes of a tree with their places, each before those of its sources. -/
def placedNodes : Expr → List (List Nat × Expr) :=
  fold fun e rows => ([], e) :: inRow 0 rows

variable {e n : Expr} {place : List Nat}

/-- The places of a tree are the root and then those of its sources, each under its number. -/
lemma placedNodes_eq (e : Expr) :
    e.placedNodes = ([], e) :: inRow 0 (e.sources.map placedNodes) :=
  fold_eq _ e

/-- A place is followed source by source. -/
lemma nodeAt?_cons (i : Nat) (place : List Nat) (e : Expr) :
    e.nodeAt? (i :: place) = e.sources[i]?.bind (nodeAt? place) :=
  List.foldlM_cons

/-- The nodes are listed with the places at which they stand. -/
lemma mem_placedNodes_iff : (place, n) ∈ e.placedNodes ↔ e.nodeAt? place = some n := by
  induction e using Expr.induction generalizing place with
  | node e ih =>
    rw [placedNodes_eq, List.mem_cons]
    cases place with
    | nil =>
      have root : e.nodeAt? [] = some e := rfl
      rw [root, Option.some_inj, Prod.mk.injEq, mem_inRow]
      constructor
      · rintro (⟨-, rfl⟩ | ⟨k, rest, nodes, ⟨⟩, -⟩)
        rfl
      · rintro rfl
        exact .inl ⟨rfl, rfl⟩
    | cons i place =>
      rw [nodeAt?_cons, Option.bind_eq_some_iff, mem_inRow]
      constructor
      · rintro (root | ⟨k, rest, nodes, eq, source, mem⟩)
        · cases root
        · rw [Nat.zero_add] at eq
          cases eq
          rw [List.getElem?_map, Option.map_eq_some_iff] at source
          obtain ⟨s, found, rfl⟩ := source
          exact ⟨s, found, (ih s (List.mem_of_getElem? found)).1 mem⟩
      · rintro ⟨s, found, reached⟩
        refine .inr ⟨i, place, s.placedNodes, by rw [Nat.zero_add], ?_, ?_⟩
        · rw [List.getElem?_map, found]
          rfl
        · exact (ih s (List.mem_of_getElem? found)).2 reached

/-- The nodes at the places of a tree are its nodes in order. -/
lemma map_placedNodes (e : Expr) : e.placedNodes.map (·.2) = e.nodes := by
  induction e using Expr.induction with
  | node e ih =>
    have sources : (e.sources.map placedNodes).map (fun row => row.map (·.2)) =
        e.sources.map nodes := by
      rw [List.map_map]
      exact List.map_congr_left ih
    rw [placedNodes_eq, List.map_cons, map_inRow, sources, nodes, fold_eq]

/-- Every node stands at some place. -/
lemma within_iff_mem_placedNodes : n.Within e ↔ ∃ place, (place, n) ∈ e.placedNodes := by
  rw [← mem_nodes_iff, ← map_placedNodes, List.mem_map]
  constructor
  · rintro ⟨⟨place, n⟩, mem, rfl⟩
    exact ⟨place, mem⟩
  · rintro ⟨place, mem⟩
    exact ⟨(place, n), mem, rfl⟩

end BoundSql.Expr
