import BoundSql.Proofs.Expr.Within

/-!
# Nodes outside of aggregates

`n.BareAt place e` says that the node `n` stands in the tree `e` at the given place with no aggregate
above it. A place is the list of the positions among the sources that lead there; places in the order
of lists are in the order in which the tree is written. `bareColumns` lists the columns of all such
places in this order: `bareOccurrences` is the same list with the places kept.
-/

namespace BoundSql.Expr

/-- The node stands at the place, and no node above it is an aggregate. -/
inductive BareAt (n : Expr) : List Nat → Expr → Prop where
  /-- At the root. -/
  | root : BareAt n [] n
  /-- In a source of the root. -/
  | source {e s : Expr} {i : Nat} {place : List Nat} : e.isAggregate = false →
      e.sources[i]? = some s → BareAt n place s → BareAt n (i :: place) e

/-- The occurrences in several trees, with the positions of these in front, from the given one on. -/
def inRow : Nat → List (List (List Nat × Expr)) → List (List Nat × Expr)
  | _, [] => []
  | i, occurrences :: rest => occurrences.map (fun o => (i :: o.1, o.2)) ++ inRow (i + 1) rest

/-- The columns and unresolved fields outside of aggregates, with their places. -/
def bareOccurrences : Expr → List (List Nat × Expr) :=
  fold fun e occurrences =>
    match e with
    | .column .. | .field _ => [([], e)]
    | .aggregate .. => []
    | _ => inRow 0 occurrences

variable {e n : Expr} {i : Nat} {place : List Nat} {trees : List (List (List Nat × Expr))}

/-- Placing several trees in a row leaves their nodes and the order of these as they are. -/
lemma map_inRow (i : Nat) (trees : List (List (List Nat × Expr))) :
    (inRow i trees).map (·.2) = (trees.map fun occurrences => occurrences.map (·.2)).flatten := by
  induction trees generalizing i with
  | nil => rfl
  | cons occurrences rest ih =>
    rw [inRow, List.map_append, ih, List.map_map]
    rfl

/-- An occurrence in a row is one in the tree at its first position. -/
lemma mem_inRow :
    (place, n) ∈ inRow i trees ↔ ∃ k rest occurrences, place = (i + k) :: rest ∧
      trees[k]? = some occurrences ∧ (rest, n) ∈ occurrences := by
  induction trees generalizing i with
  | nil => simp [inRow]
  | cons occurrences trees ih =>
    rw [inRow, List.mem_append, ih, List.mem_map]
    constructor
    · rintro (⟨⟨rest, n⟩, mem, eq⟩ | ⟨k, rest, later, rfl, tree, mem⟩)
      · cases eq
        exact ⟨0, rest, occurrences, rfl, rfl, mem⟩
      · exact ⟨k + 1, rest, later, by rw [Nat.add_right_comm, Nat.add_assoc], tree, mem⟩
    · rintro ⟨k, rest, later, rfl, tree, mem⟩
      cases k with
      | zero =>
        cases tree
        exact .inl ⟨(rest, n), mem, rfl⟩
      | succ k => exact .inr ⟨k, rest, later, by rw [Nat.add_right_comm, Nat.add_assoc], tree, mem⟩

/-- Occurrences in a row are in the order of their places when those of each tree are. -/
lemma pairwise_inRow (ordered : ∀ occurrences ∈ trees, occurrences.Pairwise (·.1 < ·.1)) :
    (inRow i trees).Pairwise (·.1 < ·.1) := by
  induction trees generalizing i with
  | nil => exact .nil
  | cons occurrences trees ih =>
    rw [inRow, List.pairwise_append]
    refine ⟨?_, ih fun o mem => ordered o (List.mem_cons_of_mem _ mem), ?_⟩
    · -- places in one tree start alike, so their rests are compared
      rw [List.pairwise_map]
      refine (ordered occurrences List.mem_cons_self).imp fun {a b} lt => ?_
      exact List.cons_lt_cons_iff.2 (.inr ⟨rfl, lt⟩)
    · -- places in a later tree start with a later position
      intro a memA ⟨place, n⟩ memB
      obtain ⟨o, -, rfl⟩ := List.mem_map.1 memA
      obtain ⟨k, rest, -, rfl, -⟩ := mem_inRow.1 memB
      exact List.cons_lt_cons_iff.2 (.inl (by omega))

/-- The bare columns are the bare occurrences without their places. -/
lemma map_bareOccurrences (e : Expr) : e.bareOccurrences.map (·.2) = e.bareColumns := by
  induction e using Expr.induction with
  | node e ih =>
    have sources : (e.sources.map bareOccurrences).map (fun o => o.map (·.2)) =
        e.sources.map bareColumns := by
      rw [List.map_map]
      exact List.map_congr_left ih
    rw [bareOccurrences, fold_eq, bareColumns, fold_eq]
    cases e with
    | column | field | aggregate => rfl
    | _ => exact (map_inRow 0 _).trans (congrArg List.flatten sources)

/-- In a tree without sources only the root is bare. -/
lemma BareAt.root_of_sources_nil (h : n.BareAt place e) (nil : e.sources = []) :
    place = [] ∧ n = e := by
  cases h with
  | root => exact ⟨rfl, rfl⟩
  | source _ found _ =>
    rw [nil] at found
    cases found

/-- The bare occurrences in the sources of a node are those below the node. -/
lemma mem_inRow_sources (aggregate : e.isAggregate = false)
    (sources : ∀ s ∈ e.sources, ∀ place, (place, n) ∈ s.bareOccurrences ↔ n.BareAt place s)
    (other : n ≠ e) : (place, n) ∈ inRow 0 (e.sources.map bareOccurrences) ↔ n.BareAt place e := by
  rw [mem_inRow]
  constructor
  · rintro ⟨k, rest, occurrences, rfl, tree, mem⟩
    rw [List.getElem?_map, Option.map_eq_some_iff] at tree
    obtain ⟨s, found, rfl⟩ := tree
    rw [Nat.zero_add]
    exact .source aggregate found ((sources s (List.mem_of_getElem? found) rest).1 mem)
  · intro h
    cases h with
    | root => contradiction
    | @source _ s k rest _ found bare =>
      refine ⟨k, rest, s.bareOccurrences, by rw [Nat.zero_add], ?_, ?_⟩
      · rw [List.getElem?_map, found]
        rfl
      · exact (sources s (List.mem_of_getElem? found) rest).2 bare

/-- A column or field is a bare occurrence exactly where it is bare. -/
lemma mem_bareOccurrences (columnar : n.isColumn = true ∨ n.isField = true) :
    (place, n) ∈ e.bareOccurrences ↔ n.BareAt place e := by
  induction e using Expr.induction generalizing place with
  | node e ih =>
    have below (aggregate : e.isAggregate = false) (other : n ≠ e) :
        (place, n) ∈ inRow 0 (e.sources.map bareOccurrences) ↔ n.BareAt place e :=
      mem_inRow_sources aggregate (fun s mem _ => ih s mem) other
    rw [bareOccurrences, fold_eq]
    cases e with
    | column | field =>
      rw [List.mem_singleton, Prod.mk.injEq]
      constructor
      · rintro ⟨rfl, rfl⟩
        exact .root
      · exact fun h => h.root_of_sources_nil rfl
    | aggregate =>
      -- an aggregate lists nothing, and is not a column itself
      apply iff_of_false List.not_mem_nil
      intro h
      cases h with
      | root => simp [isColumn, isField] at columnar
      | source aggregate _ _ => contradiction
    | _ =>
      refine below rfl ?_
      rintro rfl
      simp [isColumn, isField] at columnar

/-- Only columns and fields are bare occurrences. -/
lemma columnar_of_mem_bareOccurrences (h : (place, n) ∈ e.bareOccurrences) :
    n.isColumn = true ∨ n.isField = true := by
  induction e using Expr.induction generalizing place with
  | node e ih =>
    rw [bareOccurrences, fold_eq] at h
    split at h
    · cases List.mem_singleton.1 h
      exact .inl rfl
    · cases List.mem_singleton.1 h
      exact .inr rfl
    · cases h
    · obtain ⟨k, rest, occurrences, -, tree, mem⟩ := mem_inRow.1 h
      obtain ⟨s, source, rfl⟩ := List.mem_map.1 (List.mem_of_getElem? tree)
      exact ih s source mem

/-- A column that is bare in a tree is a node of the tree. -/
lemma BareAt.within (h : n.BareAt place e) : n.Within e := by
  induction h with
  | root => exact .root
  | source _ found _ ih => exact .source (List.mem_of_getElem? found) ih

/-- The bare occurrences are in the order of their places. -/
lemma pairwise_bareOccurrences (e : Expr) : e.bareOccurrences.Pairwise (·.1 < ·.1) := by
  induction e using Expr.induction with
  | node e ih =>
    rw [bareOccurrences, fold_eq]
    split
    · exact List.pairwise_singleton _ _
    · exact List.pairwise_singleton _ _
    · exact .nil
    · apply pairwise_inRow
      intro o mem
      obtain ⟨s, source, rfl⟩ := List.mem_map.1 mem
      exact ih s source

end BoundSql.Expr
