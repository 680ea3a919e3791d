import BoundSql.Proofs.Select.Action

/-!
# Walks along paths

A path is followed relation by relation. `Crosses` is one step, from a place of the path over a
relation to the table it points at, and `Walk` any number of them. What a step does to the query is
all in `join_cases`: it shares a join that is there, or adds one under a fresh alias. A query with
more joins is `Grown`, and nothing else of it changes on the way.

`resolveField_cases` gives the runs of `resolveField` in these terms: a path that resolves was walked
to its end, and one that fails was walked up to where it failed.
-/

namespace BoundSql.Select

open Select.Action

/-- The second query is the first one with more joins. -/
def Grown (s t : Select) : Prop :=
  ∃ added, t = { s with joins := s.joins ++ added }

/-- Growing includes staying as it is. -/
lemma Grown.refl (s : Select) : Grown s s :=
  ⟨[], by simp⟩

/-- Growing goes on from where it stopped. -/
lemma Grown.trans {s t u : Select} (h : Grown s t) (h' : Grown t u) : Grown s u := by
  obtain ⟨added, rfl⟩ := h
  obtain ⟨more, rfl⟩ := h'
  exact ⟨added ++ more, by simp⟩

/-- The query with one more join, under a fresh alias. -/
def addJoin (s : Select) (j : Join) : Select :=
  { s with joins := s.joins ++ [{ j with tableAlias := s.freshAlias j.store }] }

/-- A join is shared with the first equivalent one that may be, or else added. -/
lemma join_cases (mode : Resolution) (j : Join) (s : Select) :
    (∃ existing,
      s.joins.find? (fun k => k.isEquivalent j && mode.mayReuse k) = some existing ∧
      (join mode j).on s = (.ok existing.tableAlias, s)) ∨
    s.joins.find? (fun k => k.isEquivalent j && mode.mayReuse k) = none ∧
      (join mode j).on s = (.ok (s.freshAlias j.store), s.addJoin j) := by
  rw [join]
  rw [on_bind_ok (on_get s)]
  cases s.joins.find? fun k => k.isEquivalent j && mode.mayReuse k with
  | some existing => exact .inl ⟨existing, rfl, rfl⟩
  | none => exact .inr ⟨rfl, rfl⟩

/-- Joining succeeds, and gives the query no more than a join. -/
lemma join_on (mode : Resolution) (j : Join) (s : Select) :
    ∃ tableAlias t, (join mode j).on s = (.ok tableAlias, t) ∧ Grown s t := by
  rcases join_cases mode j s with ⟨existing, -, h⟩ | ⟨-, h⟩
  · exact ⟨_, _, h, .refl s⟩
  · exact ⟨_, _, h, _, rfl⟩

/-- One relation is crossed: from a place of the path to the table that the relation points at. -/
inductive Crosses (mode : Resolution) (s : Select) (place : Place) (segment : String)
    (t : Select) : Place → Prop where
  | relation {column relation target tableAlias} :
      place.table.column? segment = some column →
      column.relation = some relation →
      mode.allowJoins = true →
      s.catalog.table? relation.table = some target →
      (join mode (joinFrom place column relation target)).on s = (.ok tableAlias, t) →
      Crosses mode s place segment t
        ⟨tableAlias, target, place.nullable || column.nullable, false⟩

/-- Relations are crossed one after another. -/
inductive Walk (mode : Resolution) : Select → Place → List String → Select → Place → Prop where
  | stop {s place} : Walk mode s place [] s place
  | cross {s t u place next last segment hops} :
      Crosses mode s place segment t next → Walk mode t next hops u last →
      Walk mode s place (segment :: hops) u last

variable {mode : Resolution} {path segment : String} {s t : Select} {place next last : Place}

/-- Crossing a relation adds at most a join. -/
lemma Crosses.grown (h : Crosses mode s place segment t next) : Grown s t := by
  obtain ⟨-, -, -, -, joined⟩ := h
  obtain ⟨_, _, joined', grown⟩ := join_on mode _ s
  cases joined.symm.trans joined'
  exact grown

/-- Crossing relations adds joins, and nothing else. -/
lemma Walk.grown {hops : List String} (h : Walk mode s place hops t last) : Grown s t := by
  induction h with
  | stop => exact .refl _
  | cross crosses _ ih => exact crosses.grown.trans ih

/-- Where no relation may be crossed, none is. -/
lemma Walk.of_forbidden {hops : List String} (walk : Walk mode s place hops t last)
    (forbidden : mode.allowJoins = false) : hops = [] ∧ t = s := by
  cases walk with
  | stop => exact ⟨rfl, rfl⟩
  | cross crosses _ =>
    obtain ⟨-, -, allowed⟩ := crosses
    rw [forbidden] at allowed
    cases allowed

/-- A last segment is a field of the table that the path has come to, or unknown. -/
lemma on_fieldAt (path : String) (place : Place) (segment : String) (s : Select) :
    (fieldAt path place segment).on s = match place.table.column? segment with
      | some column => (.ok column, s)
      | none => (.error (s.unknownField path place), s) := by
  rw [fieldAt]
  cases place.table.column? segment <;> rfl

/-- A hop crosses a relation, or fails and leaves the query as it is. -/
lemma hop_cases (mode : Resolution) (path : String) (place : Place) (segment : String)
    (s : Select) :
    (∃ next t, (hop mode path place segment).on s = (.ok next, t) ∧
      Crosses mode s place segment t next) ∨
    ∃ e, (hop mode path place segment).on s = (.error e, s) := by
  rw [hop]
  rw [on_bind, on_fieldAt]
  -- all checks come before the join, so that a hop that fails has not changed the query
  cases found : place.table.column? segment with
  | none => exact .inr ⟨_, rfl⟩
  | some column =>
    dsimp only
    cases isRelation : column.relation with
    | none => exact .inr ⟨_, rfl⟩
    | some relation =>
      dsimp only
      cases allowed : mode.allowJoins with
      | false => exact .inr ⟨_, rfl⟩
      | true =>
        simp only [Bool.not_true, Bool.false_eq_true, if_false]
        rw [on_bind_ok (on_get s)]
        cases isTable : s.catalog.table? relation.table with
        | none => exact .inr ⟨_, rfl⟩
        | some target =>
          obtain ⟨_, t, joined, -⟩ := join_on mode (joinFrom place column relation target) s
          refine .inl ⟨_, t, ?_, .relation found isRelation allowed isTable joined⟩
          rw [on_bind_ok joined]
          rfl

/-- Hops walk to their end, or up to the one that fails. -/
lemma hops_cases (mode : Resolution) (path : String) (hops : List String) (place : Place)
    (s : Select) :
    (∃ last t, (hops.foldlM (hop mode path) place).on s = (.ok last, t) ∧
      Walk mode s place hops t last) ∨
    ∃ e done last t, (hops.foldlM (hop mode path) place).on s = (.error e, t) ∧
      done <+: hops ∧ Walk mode s place done t last := by
  induction hops generalizing place s with
  | nil => exact .inl ⟨place, s, rfl, .stop⟩
  | cons segment hops ih =>
    rw [List.foldlM_cons]
    rcases hop_cases mode path place segment s with ⟨next, t, h, crosses⟩ | ⟨e, h⟩
    · rw [on_bind_ok h]
      rcases ih next t with ⟨last, u, h, walk⟩ | ⟨e, done, last, u, h, first, walk⟩
      · exact .inl ⟨last, u, h, .cross crosses walk⟩
      · exact .inr ⟨e, segment :: done, last, u, h, List.cons_prefix_cons.2 ⟨rfl, first⟩,
          .cross crosses walk⟩
    · rw [on_bind_error h]
      exact .inr ⟨e, [], place, s, rfl, List.nil_prefix, .stop⟩

/-- A path names a computed column, or is walked from the base table to a field; else it fails
where it was walked to. -/
lemma resolveField_cases (mode : Resolution) (path : String) (s : Select) :
    (∃ name source, (resolveField mode path).on s = (.ok (.ref name source), s) ∧
      s.computed.find? (·.1 == (FieldPath.ofString path).first) = some (name, source) ∧
      (FieldPath.ofString path).hops = []) ∨
    (∃ place column t,
      (resolveField mode path).on s =
        (.ok (.column place.tableAlias column.store (some column.type)), t) ∧
      s.computed.find? (·.1 == (FieldPath.ofString path).first) = none ∧
      Walk mode s s.start (FieldPath.ofString path).hops t place ∧
      place.table.column? (FieldPath.ofString path).last = some column) ∨
    ∃ e done place t, (resolveField mode path).on s = (.error e, t) ∧
      done <+: (FieldPath.ofString path).hops ∧ Walk mode s s.start done t place := by
  rw [resolveField]
  rw [on_bind_ok (on_get s)]
  dsimp only
  cases found : s.computed.find? (·.1 == (FieldPath.ofString path).first) with
  | some named =>
    obtain ⟨name, source⟩ := named
    dsimp only
    cases hops : (FieldPath.ofString path).hops with
    | nil => exact .inl ⟨name, source, rfl, rfl, rfl⟩
    | cons => exact .inr (.inr ⟨_, [], _, s, rfl, List.nil_prefix, .stop⟩)
  | none =>
    dsimp only
    rcases hops_cases mode path (FieldPath.ofString path).hops s.start s with
      ⟨place, t, h, walk⟩ | ⟨e, done, place, t, h, first, walk⟩
    · rw [on_bind_ok h, on_bind, on_fieldAt]
      cases isField : place.table.column? (FieldPath.ofString path).last with
      | some column => exact .inr (.inl ⟨place, column, t, rfl, rfl, walk, isField⟩)
      | none => exact .inr (.inr ⟨_, _, place, t, rfl, List.prefix_rfl, walk⟩)
    · rw [on_bind_error h]
      exact .inr (.inr ⟨e, done, place, t, rfl, first, walk⟩)

/-- Where no relation may be crossed, a path leaves the query as it is. -/
lemma resolveField_of_forbidden (forbidden : mode.allowJoins = false) (path : String) (s : Select) :
    ((resolveField mode path).on s).2 = s := by
  rcases resolveField_cases mode path s with
    ⟨_, _, run, -⟩ | ⟨_, _, _, run, -, walk, -⟩ | ⟨_, _, _, _, run, -, walk⟩
  · rw [run]
  · rw [run]
    exact (walk.of_forbidden forbidden).2
  · rw [run]
    exact (walk.of_forbidden forbidden).2

end BoundSql.Select
