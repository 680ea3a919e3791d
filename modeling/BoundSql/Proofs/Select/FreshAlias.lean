import BoundSql.Select.Resolution
import Mathlib.Data.List.Nodup
import Mathlib.Data.List.Perm.Subperm
import Mathlib.Order.Bounds.Defs
import Mathlib.Tactic.IntervalCases

/-!
# Fresh aliases

A table that joins a query under a name that is taken gets the first numbered alias that is free.
Nothing bounds the `Search` for it, which goes on from number to number. It ends all the same, one
candidate after the taken ones at the latest (`exists_search`): the numbered aliases differ from each
other, and there are only so many taken ones. `freshAlias_least` says which alias it ends with.
-/

namespace BoundSql.Select

/-- Numbered aliases of different numbers differ. -/
lemma numberedAlias_injective : Function.Injective fun n : Nat => s!"T{n}" := by
  intro m n h
  have digits : "T" ++ m.repr = "T" ++ n.repr := by simpa using h
  have lists : Nat.toDigits 10 m = Nat.toDigits 10 n := by
    simpa [Nat.repr_eq_ofList_toDigits] using congrArg String.toList digits
  have values := congrArg (Nat.ofDigitChars 10 · 0) lists
  simpa [Nat.ofDigitChars_toDigits] using values

/-- The numbered aliases are tried one after another, from a number on, until one is not taken. A search
that ends has tried some number of them and found the last one. -/
inductive Search (taken : List String) : Nat → Nat → String → Prop where
  | free {n} : s!"T{n}" ∉ taken → Search taken n 1 s!"T{n}"
  | next {n tried found} : s!"T{n}" ∈ taken → Search taken (n + 1) tried found →
      Search taken n (tried + 1) found

section Search

variable {taken : List String} {n tried : Nat} {found : String}

/-- It finds the least number whose alias is not taken, and has tried all numbers up to it. -/
lemma Search.isLeast (search : Search taken n tried found) :
    ∃ m, found = s!"T{m}" ∧ IsLeast {m | n ≤ m ∧ s!"T{m}" ∉ taken} m ∧ m + 1 = n + tried := by
  induction search with
  | @free n free => exact ⟨n, rfl, ⟨⟨le_rfl, free⟩, fun _ mem => mem.1⟩, rfl⟩
  | @next n tried found used _ ih =>
    obtain ⟨m, eq, ⟨⟨le, free⟩, least⟩, count⟩ := ih
    refine ⟨m, eq, ⟨⟨by omega, free⟩, ?_⟩, by omega⟩
    rintro k ⟨le', free'⟩
    have ne : k ≠ n := fun same => free' (same ▸ used)
    exact least ⟨by omega, free'⟩

/-- What a search finds is not taken. -/
lemma Search.not_mem (search : Search taken n tried found) : found ∉ taken := by
  obtain ⟨m, rfl, least, -⟩ := search.isLeast
  exact least.1.2

/-- After any number of tries a search has ended, or met taken aliases only. -/
lemma search_cases (taken : List String) (n k : Nat) :
    (∃ tried ≤ k, ∃ found, Search taken n tried found) ∨ ∀ i < k, s!"T{n + i}" ∈ taken := by
  induction k generalizing n with
  | zero => exact .inr fun i lt => absurd lt (Nat.not_lt_zero i)
  | succ k ih =>
    by_cases used : s!"T{n}" ∈ taken
    · rcases ih (n + 1) with ⟨tried, le, found, search⟩ | all
      · exact .inl ⟨tried + 1, Nat.succ_le_succ le, found, .next used search⟩
      · refine .inr fun i lt => ?_
        cases i with
        | zero => exact used
        | succ i =>
          rw [← Nat.succ_add_eq_add_succ]
          exact all i (Nat.lt_of_succ_lt_succ lt)
    · exact .inl ⟨1, Nat.succ_le_succ (Nat.zero_le k), _, .free used⟩

/-- Of more numbered aliases than there are taken ones, not all are taken. -/
lemma not_all_taken (taken : List String) (n : Nat) :
    ¬ ∀ i < taken.length + 1, s!"T{n + i}" ∈ taken := by
  intro all
  have distinct : ((List.range (taken.length + 1)).map fun i => s!"T{n + i}").Nodup := by
    apply List.nodup_range.map
    intro i k same
    have eq := numberedAlias_injective same
    omega
  have subset : ((List.range (taken.length + 1)).map fun i => s!"T{n + i}") ⊆ taken := by
    intro c mem
    obtain ⟨i, range, rfl⟩ := List.mem_map.1 mem
    exact all i (List.mem_range.1 range)
  have le := (List.subperm_of_subset distinct subset).length_le
  rw [List.length_map, List.length_range] at le
  omega

/-- So every search ends. -/
lemma exists_search (taken : List String) (n : Nat) :
    ∃ tried ≤ taken.length + 1, ∃ found, Search taken n tried found :=
  (search_cases taken n (taken.length + 1)).resolve_right (not_all_taken taken n)

/-- What it finds is the first free one of as many candidates as it tries, or of more. -/
lemma Search.find?_eq (search : Search taken n tried found) {count : Nat} (le : tried ≤ count) :
    ((List.range count).map fun i => s!"T{n + i}").find? (!taken.contains ·) = some found := by
  obtain ⟨m, rfl, ⟨⟨above, free⟩, least⟩, last⟩ := search.isLeast
  obtain ⟨k, rfl⟩ := Nat.exists_eq_add_of_le above
  have first : (List.range count).find? (fun i => !taken.contains s!"T{n + i}") = some k := by
    refine List.find?_range_eq_some.2 ⟨by simpa using free, List.mem_range.2 (by omega), ?_⟩
    intro i lt
    by_contra free'
    have le' := least ⟨Nat.le_add_right n i, by simpa using free'⟩
    omega
  rw [List.find?_map]
  exact congrArg (Option.map _) first

end Search

variable {s : Select} {store : String}

/-- A table is called by its own name where the name is free. -/
lemma freshAlias_of_not_mem (free : store ∉ s.aliases) : s.freshAlias store = store := by
  rw [freshAlias]
  exact if_neg (by simpa using free)

/-- The alias of a table whose name is taken is what the search ends with. -/
lemma search_freshAlias (used : store ∈ s.aliases) :
    ∃ tried ≤ s.aliases.length + 1,
      Search s.aliases (s.aliases.length + 1) tried (s.freshAlias store) := by
  obtain ⟨tried, le, found, search⟩ := exists_search s.aliases (s.aliases.length + 1)
  have eq : s.freshAlias store = found := by
    rw [freshAlias]
    dsimp only
    rw [if_pos (List.contains_iff_mem.2 used), search.find?_eq le]
    rfl
  exact ⟨tried, le, eq ▸ search⟩

/-- No table of the query has the fresh alias. -/
lemma freshAlias_not_mem (s : Select) (store : String) : s.freshAlias store ∉ s.aliases := by
  by_cases used : store ∈ s.aliases
  · obtain ⟨_, -, search⟩ := search_freshAlias used
    exact search.not_mem
  · rwa [freshAlias_of_not_mem used]

/-- The alias of a table that joins a query with any joins differs from the alias of the base table and
from those of all joins. It is the table's own name where that is free. Where it is taken, the search
from the number of joins and two on ends, with no more tries than that; the alias is what it finds, `T`
with the least number from there on whose alias is not taken. -/
theorem freshAlias_least (s : Select) (store : String) :
    s.freshAlias store ≠ s.baseAlias ∧ (∀ j ∈ s.joins, s.freshAlias store ≠ j.tableAlias) ∧
    (store ∉ s.aliases → s.freshAlias store = store) ∧
    (store ∈ s.aliases → ∃ tried n, tried ≤ s.joins.length + 2 ∧
      Search s.aliases (s.joins.length + 2) tried (s.freshAlias store) ∧
      n + 1 = s.joins.length + 2 + tried ∧ s.freshAlias store = s!"T{n}" ∧
      IsLeast {m | s.joins.length + 2 ≤ m ∧ s!"T{m}" ∉ s.aliases} n) := by
  have fresh := s.freshAlias_not_mem store
  have count : s.aliases.length = s.joins.length + 1 := by simp [aliases]
  refine ⟨fun eq => ?_, fun j mem eq => ?_, freshAlias_of_not_mem, fun used => ?_⟩
  · exact fresh (eq ▸ List.mem_cons_self)
  · exact fresh (eq ▸ List.mem_cons_of_mem _ (List.mem_map_of_mem mem))
  · obtain ⟨tried, le, search⟩ := search_freshAlias used
    rw [count] at le search
    obtain ⟨n, eq, least, last⟩ := search.isLeast
    exact ⟨tried, n, le, search, last, eq, least⟩

/-- A query whose tables are called in the store what its next numbered aliases are. -/
def calledByNumbers : Select where
  catalog := .empty
  table := ⟨"orders", "T4", []⟩
  joins := ["T5", "T6"].map fun store => ⟨.inner, store, store, store, "T4", "id", "id"⟩
  computed := []
  columns := []
  conditions := []
  groupConditions := []
  order := []
  summary := []

/-- With two joins, all four candidates are tried. -/
theorem freshAlias_least_calledByNumbers :
    "T4" ∈ calledByNumbers.aliases ∧ calledByNumbers.freshAlias "T4" = "T7" ∧
      Search calledByNumbers.aliases 4 4 "T7" := by
  have used : "T4" ∈ calledByNumbers.aliases := by decide
  obtain ⟨tried, n, -, search, last, eq, ⟨le, free⟩, least⟩ :=
    (freshAlias_least calledByNumbers "T4").2.2.2 used
  have joins : calledByNumbers.joins.length = 2 := rfl
  rw [joins] at le least search last
  have upper : n ≤ 7 := least ⟨by decide, by decide⟩
  have seventh : n = 7 := by
    by_contra ne
    have taken : s!"T{n}" ∈ calledByNumbers.aliases := by
      interval_cases n
      · decide
      · decide
      · decide
      · exact absurd rfl ne
    exact free taken
  subst seventh
  obtain rfl : tried = 4 := by omega
  have alias_eq : calledByNumbers.freshAlias "T4" = "T7" := eq
  exact ⟨used, alias_eq, alias_eq ▸ search⟩

end BoundSql.Select
