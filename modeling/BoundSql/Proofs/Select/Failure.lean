import BoundSql.Proofs.Schema.Catalog
import BoundSql.Proofs.Select.Steps

/-!
# Failed operations

An operation that fails stores nothing of what it was given, but for the sort keys before the one that
failed. The joins of the relations that it crossed stay (`Operation.failed`), as does everything that
was done before a failure. A statement has its joins in one place, so that these are all the
difference between the statements before and after (`failure_leaves_joins`).
-/

namespace BoundSql.Select

/-- Whether the path crosses no relation. -/
def IsLocal (path : String) : Prop :=
  (FieldPath.ofString path).hops = []

/-- The query has more joins for what was done with the paths, and none if they cross no relation. -/
structure JoinsFor (paths : List String) (s t : Select) : Prop where
  grown : Grown s t
  still : (∀ path ∈ paths, IsLocal path) → t = s

/-- The second outcome is the first one with more text behind the tables of the statement. -/
inductive MoreTables (tables more : String) : Except Error Fragment → Except Error Fragment → Prop
  | statement (front back : String) (params : List Value) :
      MoreTables tables more (.ok ⟨front ++ " FROM " ++ tables ++ back, params⟩)
        (.ok ⟨front ++ " FROM " ++ tables ++ more ++ back, params⟩)
  | error (x : Error) : MoreTables tables more (.error x) (.error x)

/-- The text of joins that follow a table. -/
def joinClauses (d : Dialect) (joins : List Join) : String :=
  " ".intercalate ("" :: joins.map (Join.render d))

/-- The field paths of all that an operation is given. -/
def Operation.paths (operation : Operation) : List String :=
  operation.trees.flatMap Expr.fieldPaths

open Select.Action

variable {mode : Resolution} {path : String} {paths more : List String} {e : Expr} {x : Error}
  {s t u : Select} {place last : Place}

/-- Doing nothing needs no joins. -/
lemma JoinsFor.refl (paths : List String) (s : Select) : JoinsFor paths s s :=
  ⟨.refl s, fun _ => rfl⟩

/-- What is done in two steps with the same paths has its joins for these paths. -/
lemma JoinsFor.trans (h : JoinsFor paths s t) (h' : JoinsFor paths t u) : JoinsFor paths s u :=
  ⟨h.grown.trans h'.grown, fun noHop => (h'.still noHop).trans (h.still noHop)⟩

/-- Joins for some paths are joins for more of them. -/
lemma JoinsFor.mono (h : JoinsFor paths s t) (sub : paths ⊆ more) : JoinsFor more s t :=
  ⟨h.grown, fun noHop => h.still fun path mem => noHop path (sub mem)⟩

/-- Joins are added whatever the sort keys are. -/
lemma JoinsFor.with_order (h : JoinsFor paths s t) (order : List Expr) :
    JoinsFor paths { s with order } { t with order } where
  grown := by
    obtain ⟨added, rfl⟩ := h.grown
    exact ⟨added, rfl⟩
  still noHop := by
    rw [h.still noHop]

/-- A walk over no relation leaves the query as it is. -/
lemma Walk.still (walk : Walk mode s place [] t last) : t = s := by
  cases walk
  rfl

/-- A path that crosses no relation leaves the query as it is. -/
lemma resolveField_still (mode : Resolution) (noHop : IsLocal path) (s : Select) :
    ((resolveField mode path).on s).2 = s := by
  rcases resolveField_cases mode path s with
    ⟨_, _, run, -⟩ | ⟨_, _, t, run, -, walk, -⟩ | ⟨_, done, _, t, run, first, walk⟩
  · rw [run]
  · rw [run]
    rw [noHop] at walk
    exact walk.still
  · rw [run]
    rw [noHop] at first
    obtain rfl := List.prefix_nil.1 first
    exact walk.still

/-- Resolving a tree makes joins for its paths. -/
lemma joinsFor_resolve (mode : Resolution) (e : Expr) (s : Select) :
    JoinsFor e.fieldPaths s ((resolve mode e).on s).2 where
  grown := resolve_grown rfl
  still noHop := by
    obtain ⟨done, start, state⟩ := (follows_resolve mode e).state s
    rw [← state]
    exact on_mapM_related (R := fun s t => t = s) (fun _ => rfl) (fun first second => second.trans first)
      (fun path mem _ => resolveField_still mode (noHop path (start.subset mem)) _) s

/-- Resolving a tree, with success or not, adds joins for its field paths only. -/
lemma JoinsFor.of_resolve {result : Except Error Expr} (run : (resolve mode e).on s = (result, t)) :
    JoinsFor e.fieldPaths s t := by
  have joins := joinsFor_resolve mode e s
  rwa [run] at joins

/-- The field paths of one tree are among those of all. -/
lemma fieldPaths_subset {es : List Expr} (mem : e ∈ es) : e.fieldPaths ⊆ es.flatMap Expr.fieldPaths :=
  fun _ inTree => List.mem_flatMap_of_mem mem inTree

/-- Sort keys are added up to the one that fails. -/
lemma orderBy_failed {es : List Expr} (run : (orderBy es).on s = (.error x, t)) :
    ∃ keys, JoinsFor (es.flatMap Expr.fieldPaths) { s with order := s.order ++ keys } t := by
  induction es generalizing s with
  | nil => cases run
  | cons e es ih =>
    rw [on_orderBy_cons] at run
    have paths : e.fieldPaths ⊆ (e :: es).flatMap Expr.fieldPaths :=
      fieldPaths_subset List.mem_cons_self
    rcases on_cases (resolve {} e) s with ⟨r, u, resolved⟩ | ⟨x', u, resolved⟩
    · rw [resolved] at run
      -- the key is stored, and stays when a later one fails
      obtain ⟨keys, later⟩ := ih run
      have first := (JoinsFor.of_resolve resolved).mono paths
      have order : u.order = s.order := by
        obtain ⟨added, rfl⟩ := first.grown
        rfl
      refine ⟨sortKey r :: keys, ?_⟩
      have start := first.with_order (s.order ++ sortKey r :: keys)
      have eq : s.order ++ sortKey r :: keys = u.order ++ [sortKey r] ++ keys := by
        rw [order, List.append_assoc]
        rfl
      rw [eq] at start ⊢
      exact start.trans (later.mono fun path mem => List.mem_append_right _ mem)
    · rw [resolved] at run
      cases run
      exact ⟨[], by simpa using (JoinsFor.of_resolve resolved).mono paths⟩

/-- So do trees in a row, whether all of them resolve or not. -/
lemma joinsFor_mapM (es : List Expr) (s : Select) :
    JoinsFor (es.flatMap Expr.fieldPaths) s ((es.mapM (resolve {})).on s).2 :=
  on_mapM_related (.refl _) .trans
    (fun e mem s => (joinsFor_resolve {} e s).mono (fieldPaths_subset mem)) s

/-- A selection that fails leaves joins for its field paths, and nothing else. -/
lemma setColumns_failed {es : List Expr} (run : (setColumns es).on s = (.error x, t)) :
    JoinsFor (es.flatMap Expr.fieldPaths) s t := by
  have joins := joinsFor_mapM es s
  rw [on_setColumns] at run
  rcases on_cases (es.mapM (resolve {})) s with ⟨rs, u, resolved⟩ | ⟨x', u, resolved⟩
  · rw [resolved] at run
    cases run
  · rw [resolved] at run joins
    cases run
    exact joins

/-- What fails in the only tree of an operation leaves its joins. -/
lemma JoinsFor.of_tree {operation : Operation} (tree : operation.trees = [e])
    (run : (resolve mode e).on s = (.error x, t)) : JoinsFor operation.paths s t := by
  rw [Operation.paths, tree, List.flatMap_singleton]
  exact .of_resolve run

/-- An operation that fails leaves no more than joins, and sort keys if that is what it adds. -/
lemma Operation.failed {operation : Operation} (run : operation.action.on s = (.error x, t)) :
    ∃ keys, JoinsFor operation.paths { s with order := s.order ++ keys } t ∧
      ((∀ es, operation ≠ .orderBy es) → keys = []) := by
  -- all but the sort keys is as before, so that there are none of them
  suffices h : JoinsFor operation.paths s t ∨ ∃ es, operation = .orderBy es from by
    rcases h with joins | ⟨es, rfl⟩
    · exact ⟨[], by simpa using joins, fun _ => rfl⟩
    · obtain ⟨keys, joins⟩ := orderBy_failed run
      exact ⟨keys, joins, fun other => absurd rfl (other es)⟩
  cases operation with
  | annotate name e =>
    rw [action, on_annotate] at run
    split at run
    · cases run
      exact .inl (.refl _ s)
    · split at run
      · cases run
        exact .inl (.refl _ s)
      · split at run
        · cases run
        · cases run
          exact .inl (.of_tree rfl ‹_›)
  | filter p =>
    have run := error_of_discard run
    rw [on_filter] at run
    split at run
    · cases run
    · cases run
      exact .inl (.of_tree rfl ‹_›)
  | exclude p =>
    have run := error_of_discard run
    rw [on_exclude] at run
    split at run
    · cases run
    · cases run
      exact .inl (.of_tree rfl ‹_›)
  | setColumns es => exact .inl (setColumns_failed run)
  | orderBy es => exact .inr ⟨es, rfl⟩
  | summarize name e =>
    rw [action, on_summarize] at run
    split at run
    · cases run
    · cases run
      exact .inl (.of_tree rfl ‹_›)
  | resolve mode e => exact .inl (.of_tree rfl (error_of_discard run))

/-- With blanks between them, the texts of two rows are the first row, and then the second one with a
blank before each text. -/
lemma intercalate_append (a : String) (l m : List String) :
    " ".intercalate (a :: l ++ m) = " ".intercalate (a :: l) ++ " ".intercalate ("" :: m) := by
  cases m with
  | nil => simp
  | cons b m =>
    rw [String.intercalate_append_of_ne_nil (List.cons_ne_nil a l) (List.cons_ne_nil b m),
      String.intercalate_cons_cons, String.empty_append, String.append_assoc]

/-- What is computed alike before does not tell the outcomes apart. -/
lemma MoreTables.bind {α : Type} {tables more : String} {f g : α → Except Error Fragment}
    (run : Except Error α) (h : ∀ a, MoreTables tables more (f a) (g a)) :
    MoreTables tables more (run >>= f) (run >>= g) := by
  cases run with
  | error x => exact .error x
  | ok a => exact h a

/-- Joins stand in one place of a statement, and nothing else of it depends on them. -/
theorem moreTables_render (s : Select) (added : List Join) (r : Renderer) :
    MoreTables (s.renderTables r) (joinClauses r.dialect added) (s.render r)
      ({ s with joins := s.joins ++ added }.render r) := by
  have tables : renderTables { s with joins := s.joins ++ added } r =
      s.renderTables r ++ joinClauses r.dialect added := by
    rw [renderTables, renderTables, List.map_append, ← List.cons_append, intercalate_append]
    rfl
  have selected : renderSelected { s with joins := s.joins ++ added } r = s.renderSelected r := rfl
  have groups : groupBy { s with joins := s.joins ++ added } = s.groupBy := rfl
  rw [render, render, tables, selected, groups]
  refine .bind _ fun selected => .bind _ fun conditions => .bind _ fun groups =>
    .bind _ fun groupConditions => .bind _ fun order => ?_
  obtain ⟨front, back, params, text⟩ : ∃ front back params, ∀ tables,
      Fragment.join "" [.raw "SELECT ", selected, .raw (" FROM " ++ tables), conditions, groups,
        groupConditions, order] = ⟨front ++ " FROM " ++ tables ++ back, params⟩ :=
    ⟨"SELECT " ++ selected.sql, conditions.sql ++ groups.sql ++ groupConditions.sql ++ order.sql,
      selected.params ++ conditions.params ++ groups.params ++ groupConditions.params ++ order.params,
      fun tables => by
        simp [Fragment.join, Fragment.raw, String.intercalate_cons_cons, String.append_assoc]⟩
  rw [text, text, ← String.append_assoc]
  exact .statement front back params

/-- After an operation that fails, the query has no more than joins for the relations that the operation
crossed, and the statement is as before but for these, or fails as before. Only `orderBy` may leave
sort keys behind as well. -/
theorem failure_leaves_joins {operation : Operation} (run : operation.action.on s = (.error x, t)) :
    ∃ added keys, t = { s with joins := s.joins ++ added, order := s.order ++ keys } ∧
      ((∀ es, operation ≠ .orderBy es) → keys = []) ∧
      ((∀ path ∈ operation.paths, IsLocal path) → added = []) ∧
      ∀ r : Renderer, MoreTables (s.renderTables r) (joinClauses r.dialect added)
        ({ s with order := s.order ++ keys }.render r) (t.render r) := by
  obtain ⟨keys, joins, others⟩ := operation.failed run
  obtain ⟨added, rfl⟩ := joins.grown
  refine ⟨added, keys, rfl, others, fun noHop => ?_, fun r => ?_⟩
  · have still := congrArg Select.joins (joins.still noHop)
    exact List.append_right_eq_self.1 still
  · exact moreTables_render { s with order := s.order ++ keys } added r

/-- A predicate on a field that superiors do not have. -/
def byNothing : Operation :=
  .filter (.compare (.field "boss.nothing") .eq (.literal (.integer 1) none))

/-- The join of people to their superiors. -/
def toSuperior : Join where
  kind := .inner
  table := "person"
  store := "T2"
  tableAlias := "T3"
  parent := "T2"
  parentColumn := "boss_id"
  targetColumn := "id"

/-- The relation before the field is joined, and the join stays. -/
theorem failure_leaves_joins_byNothing :
    ∃ x, byNothing.action.on allStaff = (.error x, { allStaff with joins := [toSuperior] }) ∧
      MoreTables "\"T2\"" " INNER JOIN \"T2\" \"T3\" ON (\"T2\".\"boss_id\" = \"T3\".\"id\")"
        (allStaff.render (.standard .postgres))
        ({ allStaff with joins := [toSuperior] }.render (.standard .postgres)) := by
  obtain ⟨x, run⟩ : ∃ x, byNothing.action.on allStaff =
      (.error x, { allStaff with joins := [toSuperior] }) := ⟨_, rfl⟩
  obtain ⟨added, keys, state, others, -, statement⟩ := failure_leaves_joins run
  obtain rfl := others nofun
  obtain rfl : added = [toSuperior] := (congrArg Select.joins state).symm
  have extended := statement (.standard .postgres)
  have tables : allStaff.renderTables (.standard .postgres) = "\"T2\"" := by decide
  have clauses : joinClauses (Renderer.standard .postgres).dialect [toSuperior] =
      " INNER JOIN \"T2\" \"T3\" ON (\"T2\".\"boss_id\" = \"T3\".\"id\")" := by decide
  rw [tables, clauses] at extended
  exact ⟨x, run, extended⟩

/-- A failed filter can change the statement: its joins stay. -/
theorem failure_changes_statement :
    ¬ ∀ (c : Catalog) (name : String) (s t : Select) (operations : List Operation)
      (operation : Operation) (x : Error) (r : Renderer), c.Built → ofTable c name = .ok s →
      operation.action.on (s.after operations) = (.error x, t) →
      t.render r = (s.after operations).render r := by
  intro all
  have built : allStaff.catalog.Built := .add (t := staff) .empty rfl
  have same := all allStaff.catalog "person" allStaff _ [] byNothing _ (.standard .postgres) built
    ofTable_allStaff rfl
  have text := congrArg (fun run => run.toOption.map Fragment.sql) same
  revert text
  decide

end BoundSql.Select
