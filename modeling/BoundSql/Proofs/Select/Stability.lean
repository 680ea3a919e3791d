import BoundSql.Proofs.Select.Steps

/-!
# Paths keep their meaning

Operations extend a query: its tables stay, joins are added behind those that are there, and computed
columns get names that no field of the base table has (`Operation.extends`). A walk that is made again
in such a query finds each of its joins, since the first equivalent one is still the first
(`Walk.again`). So a path that was resolved once is resolved to the same column or computed column ever
after, and needs no join (`resolution_stable`).
-/

namespace BoundSql.Select

/-- The second query has the tables of the first one, and maybe more joins and computed columns. -/
structure Extends (s t : Select) : Prop where
  catalog : t.catalog = s.catalog
  table : t.table = s.table
  joins : s.joins <+: t.joins
  computed : ∃ added, t.computed = s.computed ++ added ∧
    ∀ c ∈ added, s.table.column? c.1 = none

open Select.Action

variable {mode : Resolution} {path segment tableAlias : String} {e r : Expr} {j : Join}
  {s t u : Select} {place next last : Place}

/-- A query with the same tables and computed columns is an extension. -/
lemma Extends.of_eq (catalog : t.catalog = s.catalog) (table : t.table = s.table)
    (joins : t.joins = s.joins) (computed : t.computed = s.computed) : s.Extends t where
  catalog := catalog
  table := table
  joins := joins ▸ List.prefix_rfl
  computed := ⟨[], by rw [computed, List.append_nil], by simp⟩

/-- Every query extends itself. -/
lemma Extends.refl (s : Select) : s.Extends s :=
  .of_eq rfl rfl rfl rfl

/-- Extensions of extensions are extensions. -/
lemma Extends.trans (h : s.Extends t) (h' : t.Extends u) : s.Extends u where
  catalog := h'.catalog.trans h.catalog
  table := h'.table.trans h.table
  joins := h.joins.trans h'.joins
  computed := by
    obtain ⟨added, computed, free⟩ := h.computed
    obtain ⟨more, computed', free'⟩ := h'.computed
    refine ⟨added ++ more, by rw [computed', computed, List.append_assoc], fun c mem => ?_⟩
    rcases List.mem_append.1 mem with mem | mem
    · exact free c mem
    · rw [← h.table]
      exact free' c mem

/-- More joins extend a query. -/
lemma Grown.extends (h : Grown s t) : s.Extends t := by
  obtain ⟨added, rfl⟩ := h
  exact ⟨rfl, rfl, List.prefix_append _ _, [], (List.append_nil _).symm, by simp⟩

/-- A computed column under a name that is not that of a field. -/
lemma extends_computed {name : String} (free : s.table.column? name = none) (r : Expr) :
    s.Extends { s with computed := s.computed ++ [(name, r)] } where
  catalog := rfl
  table := rfl
  joins := List.prefix_rfl
  computed := ⟨[(name, r)], rfl, by simpa using free⟩

/-- Resolving a tree extends the query, and so does what is done after it. -/
lemma extends_of_resolve {x : Except Error Expr} (run : (resolve mode e).on s = (x, t))
    (rest : t.Extends u) : s.Extends u :=
  (resolve_grown run).extends.trans rest

/-- An annotation extends the query, whether it succeeds or not. -/
lemma annotate_extends (name : String) (e : Expr) (s : Select) :
    s.Extends ((annotate name e).on s).2 := by
  rw [on_annotate]
  split
  · exact .refl s
  · rename_i free
    split
    · exact .refl s
    · rcases on_cases (resolve {} e) s with ⟨r, t, run⟩ | ⟨x, t, run⟩
      · rw [run]
        refine extends_of_resolve run (extends_computed ?_ r)
        rw [(resolve_grown run).extends.table]
        exact Option.not_isSome_iff_eq_none.1 free
      · rw [run]
        exact extends_of_resolve run (.refl t)

/-- A selection extends the query, whether it succeeds or not. -/
lemma setColumns_extends (es : List Expr) (s : Select) : s.Extends ((setColumns es).on s).2 := by
  have resolved : s.Extends ((es.mapM (resolve {})).on s).2 :=
    on_mapM_related (R := Extends) .refl .trans (fun e _ s => (resolve_grown rfl).extends) s
  rw [on_setColumns]
  rcases on_cases (es.mapM (resolve {})) s with ⟨rs, t, run⟩ | ⟨x, t, run⟩
  · rw [run] at resolved ⊢
    exact resolved.trans (.of_eq rfl rfl rfl rfl)
  · rw [run] at resolved ⊢
    exact resolved

/-- An ordering extends the query, whether it succeeds or not. -/
lemma orderBy_extends (es : List Expr) (s : Select) : s.Extends ((orderBy es).on s).2 := by
  induction es generalizing s with
  | nil => exact .refl s
  | cons e es ih =>
    rw [on_orderBy_cons]
    rcases on_cases (resolve {} e) s with ⟨r, t, run⟩ | ⟨x, t, run⟩
    · rw [run]
      have stores : t.Extends { t with order := t.order ++ [sortKey r] } := .of_eq rfl rfl rfl rfl
      exact extends_of_resolve run (stores.trans (ih _))
    · rw [run]
      exact extends_of_resolve run (.refl t)

/-- Every operation extends the query, whether it succeeds or fails. -/
lemma Operation.extends (operation : Operation) (s : Select) :
    s.Extends (operation.action.on s).2 := by
  cases operation with
  | annotate name e => exact annotate_extends name e s
  | filter p =>
    rw [action, on_discard_snd, on_filter]
    rcases on_cases (Select.resolve {} p) s with ⟨r, t, run⟩ | ⟨x, t, run⟩
    · rw [run]
      exact extends_of_resolve run (.of_eq rfl rfl rfl rfl)
    · rw [run]
      exact extends_of_resolve run (.refl t)
  | exclude p =>
    rw [action, on_discard_snd, on_exclude]
    rcases on_cases (Select.resolve {} p) s with ⟨r, t, run⟩ | ⟨x, t, run⟩
    · rw [run]
      exact extends_of_resolve run (.of_eq rfl rfl rfl rfl)
    · rw [run]
      exact extends_of_resolve run (.refl t)
  | setColumns es => exact setColumns_extends es s
  | orderBy es => exact orderBy_extends es s
  | summarize name e =>
    rw [action, on_summarize]
    rcases on_cases (Select.resolve { summarize := true } e) s with ⟨r, t, run⟩ | ⟨x, t, run⟩
    · rw [run]
      exact extends_of_resolve run (.of_eq rfl rfl rfl rfl)
    · rw [run]
      exact extends_of_resolve run (.refl t)
  | resolve mode e =>
    rw [action, on_discard_snd]
    exact extends_of_resolve rfl (.refl _)

/-- Any operations extend the query. -/
lemma after_extends (operations : List Operation) (s : Select) : s.Extends (s.after operations) := by
  induction operations generalizing s with
  | nil => exact .refl s
  | cons operation rest ih => exact (operation.extends s).trans (ih _)

/-- The first element with a property is still the first when more come behind. -/
lemma find?_of_start {α : Type} {p : α → Bool} {l l' : List α} {a : α} (h : l.find? p = some a)
    (start : l <+: l') : l'.find? p = some a := by
  obtain ⟨more, rfl⟩ := start
  rw [List.find?_append, h]
  rfl

/-- A join that was shared or added is shared when it is asked for again. -/
lemma join_again (run : (join {} j).on s = (.ok tableAlias, t)) (later : t.Extends u) :
    (join {} j).on u = (.ok tableAlias, u) := by
  have found : ∃ k, t.joins.find? (fun k => k.isEquivalent j && Resolution.mayReuse {} k) = some k ∧
      k.tableAlias = tableAlias := by
    rcases join_cases {} j s with ⟨k, shared, run'⟩ | ⟨missing, run'⟩
    · cases run'.symm.trans run
      exact ⟨k, shared, rfl⟩
    · cases run'.symm.trans run
      refine ⟨{ j with tableAlias := s.freshAlias j.store }, ?_, rfl⟩
      rw [addJoin, List.find?_append, missing]
      simp [Join.isEquivalent, Resolution.mayReuse]
  obtain ⟨k, found, rfl⟩ := found
  have again := find?_of_start found later.joins
  rcases join_cases {} j u with ⟨k', shared, run'⟩ | ⟨missing, -⟩
  · cases again.symm.trans shared
    exact run'
  · cases again.symm.trans missing

/-- A relation that was crossed is crossed over the same join later on. -/
lemma Crosses.again (crosses : Crosses {} s place segment t next) (later : t.Extends u) :
    Crosses {} u place segment u next := by
  have catalog := later.catalog.trans crosses.grown.extends.catalog
  cases crosses with
  | relation found isRelation allowed isTable joined =>
    exact .relation found isRelation allowed (by rwa [catalog]) (join_again joined later)

/-- A walk can be made again without another join. -/
lemma Walk.again {hops : List String} (walk : Walk {} s place hops t last) (later : t.Extends u) :
    Walk {} u place hops u last := by
  induction walk with
  | stop => exact .stop
  | cross crosses walk ih =>
    exact .cross (crosses.again (walk.grown.extends.trans later)) (ih later)

/-- A relation that can be crossed is crossed by the hop over it. -/
lemma Crosses.on_hop (crosses : Crosses mode s place segment t next) (path : String) :
    (hop mode path place segment).on s = (.ok next, t) := by
  cases crosses with
  | relation found isRelation allowed isTable joined =>
    rw [hop, on_bind, on_fieldAt, found]
    dsimp only
    rw [isRelation]
    dsimp only
    simp only [allowed, Bool.not_true, Bool.false_eq_true, if_false]
    rw [on_bind_ok (on_get s), isTable]
    exact on_bind_ok joined

/-- Following the relations of a path comes to where the walk over them ends. -/
lemma Walk.on_hops {hops : List String} (walk : Walk mode s place hops t last) (path : String) :
    (hops.foldlM (hop mode path) place).on s = (.ok last, t) := by
  induction walk with
  | stop => rfl
  | cross crosses _ ih => rw [List.foldlM_cons, on_bind_ok (crosses.on_hop path), ih]

/-- The first segment of a path that was walked to a field is that of a field of the first table. -/
lemma Walk.column?_first {p : FieldPath} {column : Column} (walk : Walk mode s place p.hops t last)
    (found : last.table.column? p.last = some column) : ∃ c, place.table.column? p.first = some c := by
  obtain ⟨hops, segment⟩ := p
  cases walk with
  | stop => exact ⟨column, found⟩
  | cross crosses _ =>
    obtain ⟨isField, -⟩ := crosses
    exact ⟨_, isField⟩

/-- No computed column hides a field that none hid before. -/
lemma Extends.find?_computed_eq_none {c : Column} {segment : String} (h : s.Extends t)
    (free : s.computed.find? (·.1 == segment) = none) (field : s.table.column? segment = some c) :
    t.computed.find? (·.1 == segment) = none := by
  obtain ⟨added, computed, names⟩ := h.computed
  rw [computed, List.find?_append, free, Option.none_or, List.find?_eq_none]
  intro c' mem same
  rw [beq_iff_eq] at same
  have noField := names c' mem
  rw [same, field] at noField
  cases noField

/-- A path resolves to the column of the field that it was walked to, as long as its first segment is no
computed column. -/
lemma on_resolveField_of_walk {column : Column}
    (unhidden : s.computed.find? (·.1 == (FieldPath.ofString path).first) = none)
    (walk : Walk mode s s.start (FieldPath.ofString path).hops t place)
    (isField : place.table.column? (FieldPath.ofString path).last = some column) :
    (resolveField mode path).on s =
      (.ok (.column place.tableAlias column.store (some column.type)), t) := by
  rw [resolveField, on_bind_ok (on_get s)]
  dsimp only
  rw [unhidden]
  dsimp only
  rw [on_bind_ok (walk.on_hops path), on_bind, on_fieldAt, isField]
  rfl

/-- A path that was resolved is resolved alike in every query that the one after it has become. -/
lemma resolveField_again (run : (resolveField {} path).on s = (.ok r, t)) (later : t.Extends u) :
    (resolveField {} path).on u = (.ok r, u) := by
  rcases resolveField_cases {} path s with
    ⟨name, source, run', found, noHop⟩ | ⟨place, column, t', run', free, walk, isField⟩ |
      ⟨_, _, _, _, run', -⟩
  · cases run'.symm.trans run
    obtain ⟨added, computed, -⟩ := later.computed
    rw [resolveField, on_bind_ok (on_get u)]
    dsimp only
    rw [find?_of_start found (computed ▸ List.prefix_append _ added), noHop]
    rfl
  · cases run'.symm.trans run
    -- the first segment is a field of the base table, which no later computed column can hide
    obtain ⟨c, first⟩ := walk.column?_first isField
    have extended := walk.grown.extends.trans later
    have start : s.start = u.start := by
      rw [Select.start, Select.start, baseAlias, baseAlias, extended.table]
    have again := walk.again later
    rw [start] at again
    exact on_resolveField_of_walk (extended.find?_computed_eq_none free first) again isField
  · cases run'.symm.trans run

/-- Unless rows are summarized, the tree of a field path is resolved as the path is. -/
lemma on_resolve_field_of_rows (rows : mode.summarize = false) (path : String) (s : Select) :
    (resolve mode (.field path)).on s = (resolveField mode path).on s := by
  have tree : (Expr.field path).fold (resolveNode mode) = resolveField mode path := rfl
  rw [resolve, tree]
  rcases on_cases (resolveField mode path) s with ⟨r, t, run⟩ | ⟨x, t, run⟩
  · rw [on_bind_ok run, run, rows]
    rfl
  · rw [on_bind_error run, run]

/-- A field resolves to what its path does. -/
lemma on_resolve_field (path : String) (s : Select) :
    (resolve {} (.field path)).on s = (resolveField {} path).on s :=
  on_resolve_field_of_rows rfl path s

/-- After any operations, whether they succeed or fail, a path that could be resolved before has the
same meaning as then, and needs no other join. -/
theorem resolution_stable (run : (resolve {} (.field path)).on s = (.ok r, t))
    (operations : List Operation) :
    (resolve {} (.field path)).on (t.after operations) = (.ok r, t.after operations) := by
  rw [on_resolve_field] at run ⊢
  exact resolveField_again run (after_extends operations t)

/-- Operations that join the table of superiors once more, and that try to hide the relation. -/
def rejoined : List Operation :=
  [.resolve { reuse := some [] } (.field "boss.name"), .annotate "boss" (.field "pay"),
    .annotate "chief" (.field "boss.boss.name"), .setColumns [.field "chief", .field "boss.nothing"]]

/-- Of two equivalent joins a path goes on to take the first one. -/
theorem resolution_stable_rejoined :
    let first := (resolve {} (.field "boss.name")).on allStaff
    let u := first.2.after rejoined
    u.aliases = ["T2", "T3", "T4", "T5"] ∧
      u.joins.map (·.parent) = ["T2", "T2", "T3"] ∧
      (resolve {} (.field "boss.name")).on u = (.ok (.column "T3" "name" (some .text)), u) := by
  refine ⟨?_, ?_, resolution_stable (s := allStaff) rfl rejoined⟩
  · decide
  · decide

end BoundSql.Select
