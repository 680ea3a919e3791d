import BoundSql.Proofs.Expr.Sources
import BoundSql.Proofs.Select.Scoping
import BoundSql.Proofs.Select.Stability

/-!
# Relations lead to tables

A valid catalog is checked once, by the stored names of columns, and its relations are followed by field
names, from table to table and over joins that other paths have left. The invariant is `Anchored`: the
catalog is closed, and each join follows a relation of the table it starts from. A relation that is
crossed from a table of such a query has its target (`Anchored.hop`), so that no path fails for want of
a table, and the join that it takes is anchored in turn (`Crosses.anchored`). `Steady` says both of an
action; trees and operations have it from their paths, so that a query over a valid catalog never
dangles (`validated_never_dangles`).
-/

namespace BoundSql.Select

/-- The join follows a relation that a table of the query has in the column. -/
structure Anchors (s : Select) (table : Table) (column : Column) (j : Join) : Prop where
  names : s.Names j.parent table
  mem : column ∈ table.columns
  relation : column.relation = some ⟨j.table, j.targetColumn⟩
  store : column.store = j.parentColumn

/-- The joins follow each other along relations of a closed catalog, from a table of it. -/
structure Anchored (s : Select) : Prop extends Joined s where
  closed : s.catalog.Closed
  base : s.catalog.table? s.table.name = some s.table
  anchors : ∀ j ∈ s.joins, ∃ table column, s.Anchors table column j

variable {α β : Type}

/-- On the query, the action leaves an anchored one, and does not fail for want of a table. -/
def Steady (s : Select) (x : Action α) : Prop :=
  (x.on s).2.Anchored ∧ ∀ name, (x.on s).1 ≠ .error (.unknownTable name)

open Select.Action

variable {mode : Resolution} {path segment : String} {j : Join} {s t : Select} {place next : Place}

/-- A join that is added takes no anchor away. -/
lemma Anchors.addJoin {table : Table} {column : Column} {k : Join} (h : s.Anchors table column k)
    (j : Join) : (s.addJoin j).Anchors table column k where
  names := h.names.mono rfl rfl (List.subset_append_left _ _)
  mem := h.mem
  relation := h.relation
  store := h.store

/-- The joins of a query are anchored by its catalog, its table and its joins alone. -/
lemma Anchored.of_tables (h : s.Anchored) (catalog : t.catalog = s.catalog)
    (table : t.table = s.table) (joins : t.joins = s.joins) : t.Anchored := by
  refine ⟨h.toJoined.of_tables catalog table joins, ?_, ?_, fun j mem => ?_⟩
  · rw [catalog]
    exact h.closed
  · rw [catalog, table]
    exact h.base
  · rw [joins] at mem
    obtain ⟨table', column, names, inTable, relation, store⟩ := h.anchors j mem
    have names := names.mono catalog table (joins ▸ List.Subset.refl _)
    exact ⟨table', column, names, inTable, relation, store⟩

/-- The query for all rows of a table of a closed catalog has no joins to anchor. -/
lemma anchored_ofTable {c : Catalog} {name : String} (built : c.Built) (closed : c.Closed)
    (base : ofTable c name = .ok s) : s.Anchored := by
  have start := (scoped_ofTable built base).toJoined
  have registered := registered_ofTable built base
  obtain ⟨table, rfl⟩ := eq_of_ofTable base
  exact ⟨start, closed, registered, fun _ mem => absurd mem List.not_mem_nil⟩

/-! ### One relation -/

/-- The join that a relation takes follows the relation. -/
lemma Crosses.anchored (crosses : Crosses mode s place segment t next) (h : s.Anchored)
    (names : s.Names place.tableAlias place.table) : t.Anchored := by
  have joined := (crosses.joined h.toJoined names).1
  cases crosses with
  | @relation column relation target tableAlias isField isRelation _ isTable run =>
    rcases join_cases mode (joinFrom place column relation target) s with ⟨_, -, run'⟩ | ⟨-, run'⟩
    · cases run'.symm.trans run
      exact h
    · cases run'.symm.trans run
      refine ⟨joined, h.closed, h.base, fun k mem => ?_⟩
      rcases List.mem_append.1 mem with old | new
      · obtain ⟨table, column, anchors⟩ := h.anchors k old
        exact ⟨table, column, anchors.addJoin _⟩
      · obtain rfl := List.mem_singleton.1 new
        have names := names.mono (t := s.addJoin (joinFrom place column relation target)) rfl rfl
          (List.subset_append_left _ _)
        exact ⟨place.table, column, names, List.mem_of_find?_eq_some isField,
          relation_joinFrom h.built isRelation isTable place, rfl⟩

/-- A hop that fails for want of a table is one over a relation to a table that is not there. -/
lemma exists_relation_of_hop {name : String}
    (run : ((hop mode path place segment).on s).1 = .error (.unknownTable name)) :
    ∃ column ∈ place.table.columns, ∃ relation, column.relation = some relation ∧
      s.catalog.table? relation.table = none := by
  rw [hop, on_bind, on_fieldAt] at run
  cases isField : place.table.column? segment with
  | none =>
    rw [isField] at run
    cases run
  | some column =>
    rw [isField] at run
    dsimp only at run
    cases isRelation : column.relation with
    | none =>
      rw [isRelation] at run
      cases run
    | some relation =>
      refine ⟨column, List.mem_of_find?_eq_some isField, relation, isRelation, ?_⟩
      rw [isRelation] at run
      -- a relation that may not be crossed is refused before its table is looked up
      cases allowed : mode.allowJoins with
      | false =>
        rw [allowed] at run
        cases run
      | true =>
        simp only [allowed, Bool.not_true, Bool.false_eq_true, if_false] at run
        rw [on_bind_ok (on_get s)] at run
        cases isTable : s.catalog.table? relation.table with
        | none => rfl
        | some target =>
          obtain ⟨_, t, joined, -⟩ := join_on mode (joinFrom place column relation target) s
          rw [isTable] at run
          dsimp only at run
          rw [on_bind_ok joined] at run
          cases run

/-- A relation of an anchored query can be crossed, or it cannot for another reason. -/
lemma Anchored.hop (h : s.Anchored) (names : s.Names place.tableAlias place.table) :
    s.Steady (hop mode path place segment) := by
  constructor
  · rcases hop_cases mode path place segment s with ⟨next, t, run, crosses⟩ | ⟨x, run⟩
    · rw [run]
      exact crosses.anchored h names
    · rw [run]
      exact h
  · intro name run
    obtain ⟨column, mem, relation, isRelation, missing⟩ := exists_relation_of_hop run
    obtain ⟨_, found⟩ := names.exists_table? h.base
    obtain ⟨target, isTable, -⟩ := h.closed found column mem relation isRelation
    cases missing.symm.trans isTable

/-! ### Sequences -/

/-- Doing nothing is steady. -/
lemma Anchored.pure (h : s.Anchored) (a : α) : s.Steady (pure a : Action α) :=
  ⟨h, by simp⟩

/-- Looking at the query is steady. -/
lemma Anchored.get (h : s.Anchored) : s.Steady get :=
  ⟨h, by simp⟩

/-- Every failure but an unknown table is steady. -/
lemma Anchored.throw {x : Error} (h : s.Anchored) (other : ∀ name, x ≠ .unknownTable name) :
    s.Steady (throw x : Action α) := by
  refine ⟨h, fun name eq => other name ?_⟩
  cases eq
  rfl

/-- A sequence of actions, of which the later ones run on what the first one leaves. -/
lemma Steady.bind {x : Action α} {f : α → Action β} (first : s.Steady x)
    (rest : ∀ {a t}, x.on s = (.ok a, t) → t.Anchored → t.Steady (f a)) : s.Steady (x >>= f) := by
  obtain ⟨anchored, known⟩ := first
  rcases on_cases x s with ⟨a, t, run⟩ | ⟨e, t, run⟩
  · rw [run] at anchored
    rw [Steady, on_bind_ok run]
    exact rest run anchored
  · rw [run] at anchored known
    rw [Steady, on_bind_error run]
    refine ⟨anchored, fun name eq => known name ?_⟩
    cases eq
    rfl

/-- What comes after a refusal does not run. -/
lemma Anchored.refuse {x : Error} {f : α → Action β} (h : s.Anchored)
    (other : ∀ name, x ≠ .unknownTable name) : s.Steady (MonadExcept.throw x >>= f) :=
  (h.throw other).bind fun run => by cases run

/-- A list of steady actions is steady. -/
lemma Anchored.mapM {f : α → Action β} {l : List α} (h : s.Anchored)
    (each : ∀ a ∈ l, ∀ {s : Select}, s.Anchored → s.Steady (f a)) : s.Steady (l.mapM f) := by
  induction l generalizing s with
  | nil =>
    rw [List.mapM_nil]
    exact h.pure []
  | cons a rest ih =>
    obtain ⟨first, later⟩ := List.forall_mem_cons.1 each
    rw [List.mapM_cons]
    exact (first h).bind fun _ h => (ih h later).bind fun _ h => h.pure _

/-! ### Paths and trees -/

/-- Following relations from a table that is named is steady. -/
lemma Anchored.hops {hops : List String} (h : s.Anchored)
    (names : s.Names place.tableAlias place.table) :
    s.Steady (hops.foldlM (Select.hop mode path) place) := by
  induction hops generalizing s place with
  | nil => exact h.pure place
  | cons segment hops ih =>
    rw [List.foldlM_cons]
    refine (h.hop names).bind fun {next t} run h' => ih h' ?_
    rcases hop_cases mode path place segment s with ⟨next, t, run', crosses⟩ | ⟨x, run'⟩
    · cases run'.symm.trans run
      exact (crosses.joined h.toJoined names).2
    · cases run'.symm.trans run

/-- Looking up the last segment of a path is steady. -/
lemma Anchored.fieldAt (h : s.Anchored) : s.Steady (fieldAt path place segment) := by
  rw [Steady, on_fieldAt]
  split
  · exact ⟨h, by simp⟩
  · exact ⟨h, by simp [unknownField]⟩

/-- Resolving a path is steady. -/
lemma Anchored.resolveField (h : s.Anchored) (mode : Resolution) (path : String) :
    s.Steady (resolveField mode path) := by
  rw [Select.resolveField]
  refine h.get.bind fun run _ => ?_
  cases run
  dsimp only
  split
  · split_ifs
    · exact h.pure _
    · exact h.throw (by simp [unknownField])
  · exact (h.hops .base).bind fun _ h => h.fieldAt.bind fun _ h => h.pure _

/-- Resolving a node is steady when resolving its sources is. -/
lemma Anchored.resolveNode {e : Expr} {sources : List (Action Expr)} (h : s.Anchored)
    (length : sources.length = e.sources.length)
    (each : ∀ x ∈ sources, ∀ {s : Select}, s.Anchored → s.Steady x) :
    s.Steady (resolveNode mode e sources) := by
  have row {s : Select} (h : s.Anchored) : s.Steady (sources.mapM id) := h.mapM each
  unfold Select.resolveNode
  have arity : s.Steady (ofExcept e.checkArity : Action Unit) := by
    rw [Steady, on_ofExcept, Expr.checkArity, Expr.expectSources]
    split_ifs
    · exact ⟨h, by simp⟩
    · exact ⟨h, by simp⟩
  refine arity.bind fun _ h => ?_
  -- the node can be refused for other reasons, but only its field paths look up tables
  split
  · exact h.resolveField mode _
  · exact h.pure _
  · exact h.pure _
  · exact h.pure _
  · exact h.pure _
  · refine (row h).bind fun _ h => ?_
    split_ifs
    · exact h.refuse (by simp)
    · exact h.pure _
  · rw [Expr.rebuild_eq _ length]
    exact (row h).bind fun _ h => h.pure _

/-- No tree is refused for want of a table. -/
lemma Anchored.resolve (h : s.Anchored) (mode : Resolution) (e : Expr) :
    s.Steady (resolve mode e) := by
  have tree : s.Steady (e.fold (Select.resolveNode mode)) := by
    induction e using Expr.induction generalizing s with
    | node e ih =>
      rw [Expr.fold_eq]
      refine h.resolveNode (List.length_map _) fun x mem {s} h => ?_
      obtain ⟨source, inside, rfl⟩ := List.mem_map.1 mem
      exact ih source inside h
  refine tree.bind fun _ h => ?_
  split_ifs
  · exact h.refuse (by simp)
  · exact h.pure _

/-! ### Operations -/

/-- An update that keeps the catalog, the table and the joins is steady. -/
lemma Anchored.update {f : Select → Select} (h : s.Anchored) (catalog : (f s).catalog = s.catalog)
    (table : (f s).table = s.table) (joins : (f s).joins = s.joins) :
    s.Steady (modify f : Action PUnit) :=
  ⟨h.of_tables catalog table joins, by simp⟩

/-- Placing a predicate in its clause is steady. -/
lemma Anchored.predicate (h : s.Anchored) (p : Expr) : s.Steady (Select.place p) := by
  rw [Steady, on_place]
  exact ⟨h.of_tables rfl rfl rfl, by simp⟩

/-- Discarding a result is steady. -/
lemma Steady.discard {x : Action α} (h : s.Steady x) : s.Steady (discard x) :=
  h.bind fun _ h => h.pure _

/-- No operation is refused for want of a table. -/
lemma Anchored.operation (h : s.Anchored) (operation : Operation) : s.Steady operation.action := by
  cases operation with
  | annotate name e =>
    rw [Operation.action, annotate]
    refine h.get.bind fun _ h => ?_
    dsimp only
    split
    · exact h.refuse (by simp)
    · split
      · exact h.refuse (by simp)
      · exact (h.resolve {} e).bind fun _ h => h.update rfl rfl rfl
  | filter p => exact ((h.resolve {} p).bind fun _ h => h.mapM fun p _ _ h => h.predicate p).discard
  | exclude p => exact ((h.resolve {} p).bind fun _ h => h.predicate _).discard
  | setColumns es =>
    exact (h.mapM fun e _ _ h => h.resolve {} e).bind fun _ h => h.update rfl rfl rfl
  | orderBy es =>
    rw [Operation.action]
    -- each key is resolved on the query that the keys before it have left
    induction es generalizing s with
    | nil => exact h.pure _
    | cons e es ih =>
      have first : s.Steady (do
          let r ← Select.resolve {} e
          modify fun s => { s with order := s.order ++ [sortKey r] }) :=
        (h.resolve {} e).bind fun _ h => h.update rfl rfl rfl
      exact first.bind fun _ h => ih h
  | summarize name e => exact (h.resolve _ e).bind fun _ h => h.update rfl rfl rfl
  | resolve mode e => exact (h.resolve mode e).discard

/-- Every query that operations build is anchored. -/
lemma Anchored.after (h : s.Anchored) (operations : List Operation) :
    (s.after operations).Anchored := by
  induction operations generalizing s with
  | nil => exact h
  | cons operation rest ih => exact ih (h.operation operation).1

/-- A query over a valid catalog does not dangle, whatever operations were tried on it: no operation and
no path fails for want of a table, and each join points at a stored column of the table that it joins,
from a stored column of the table that its parent stands for. -/
theorem validated_never_dangles {c : Catalog} {name : String} (built : c.Built)
    (valid : c.validate = .ok ()) (base : ofTable c name = .ok s) (operations : List Operation) :
    let u := s.after operations
    (∀ (operation : Operation) missing,
      (operation.action.on u).1 ≠ .error (.unknownTable missing)) ∧
    (∀ mode path missing, ((resolveField mode path).on u).1 ≠ .error (.unknownTable missing)) ∧
    u.Joined ∧ u.catalog = c ∧ ∀ j ∈ u.joins,
      (∃ target, u.Names j.tableAlias target ∧ c.table? j.table = some target ∧
        target.Stores j.targetColumn) ∧
      ∃ parent, u.Names j.parent parent ∧ parent.Stores j.parentColumn := by
  intro u
  have start := anchored_ofTable built (Catalog.closed_of_validate valid) base
  have anchored : u.Anchored := start.after operations
  have catalog : u.catalog = c := by
    rw [(after_extends operations s).catalog]
    obtain ⟨table, rfl⟩ := eq_of_ofTable base
    rfl
  refine ⟨fun operation => (anchored.operation operation).2,
    fun mode path => (anchored.resolveField mode path).2, anchored.toJoined, catalog,
    fun j mem => ?_⟩
  obtain ⟨parent, column, anchors⟩ := anchored.anchors j mem
  obtain ⟨_, registered⟩ := anchors.names.exists_table? anchored.base
  obtain ⟨target, found, stores⟩ :=
    anchored.closed registered column anchors.mem _ anchors.relation
  obtain ⟨target', found', store⟩ := anchored.tables j mem
  obtain rfl := Option.some.inj (found.symm.trans found')
  exact ⟨⟨target, .joined mem found store, catalog ▸ found, stores⟩, parent, anchors.names, column,
    anchors.mem, anchors.store⟩

/-- Employees, with relations to themselves and to their firm. -/
def employee : Table :=
  ⟨"employee", "emp", [.plain "id" .integer, .foreignKey "boss" ⟨"employee", "id"⟩,
    .foreignKey "firm" ⟨"firm", "code"⟩]⟩

/-- Firms, whose code has another name in paths, with a relation back to an employee. -/
def firm : Table :=
  ⟨"firm", "firm", [⟨"number", "code", .integer, false, none⟩,
    .foreignKey "owner" ⟨"employee", "id"⟩]⟩

/-- A catalog of two tables with relations between them. -/
def business : Catalog :=
  ⟨((∅ : Dict Table).insert "employee" employee).insert "firm" firm⟩

/-- Operations that go around the relations, share joins and make others anew, and fail on the way. -/
def roundTrips : List Operation :=
  [.filter (.compare (.field "firm.owner.firm.number") .eq (.field "boss.firm.number")),
    .resolve { reuse := some [] } (.field "firm.owner.boss.id"),
    .orderBy [.field "firm.owner.id", .field "firm.owner.rank"]]

/-- Relations that lead around in circles are followed safely. -/
theorem validated_never_dangles_roundTrips :
    let s : Select := ⟨business, employee, [], [], [], [], [], [], []⟩
    let u := s.after roundTrips
    u.joins.length = 8 ∧ u.Joined ∧ ∀ j ∈ u.joins,
      ∃ target, u.Names j.tableAlias target ∧ target.Stores j.targetColumn := by
  intro s u
  have built : business.Built := .add (t := firm) (.add (t := employee) .empty rfl) rfl
  have valid : business.validate = .ok () := Catalog.validate_eq_ok_iff.2 (by decide)
  have base : ofTable business "employee" = .ok s := rfl
  have ⟨_, _, joined, _, joins⟩ := validated_never_dangles built valid base roundTrips
  refine ⟨?_, joined, fun j mem => ?_⟩
  · decide +kernel
  · obtain ⟨target, names, -, stores⟩ := (joins j mem).1
    exact ⟨target, names, stores⟩

end BoundSql.Select
