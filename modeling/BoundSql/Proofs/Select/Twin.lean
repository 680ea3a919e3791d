import BoundSql.Proofs.Expr.Twin
import BoundSql.Proofs.Lifting
import BoundSql.Proofs.Select.Operations
import BoundSql.Proofs.Select.Routing

/-!
# Twin queries

Two queries are twins when they differ only in the values of literals. Actions are `Parallel` when
they take twins to twins, and both succeed or both fail there. Each operation is parallel to the same
operation with trees that are twins.
-/

namespace BoundSql

/-- The errors are the same, but for the trees that some of them show. -/
inductive Error.Twin : Error → Error → Prop where
  | same (e) : Twin e e
  | nestedAggregate (function shown shown') :
      Twin (.nestedAggregate function shown) (.nestedAggregate function shown')
  | notAggregate (shown shown') : Twin (.notAggregate shown) (.notAggregate shown')

namespace Select

open Select.Action

/-- The same name, for trees that are twins. -/
def TwinNamed (R : Value → Value → Prop) (a b : String × Expr) : Prop :=
  a.1 = b.1 ∧ a.2.Twin R b.2

/-- The queries are the same but for the values of literals. -/
structure Twin (R : Value → Value → Prop) (s t : Select) : Prop where
  catalog : s.catalog = t.catalog
  table : s.table = t.table
  joins : s.joins = t.joins
  computed : List.Forall₂ (TwinNamed R) s.computed t.computed
  columns : List.Forall₂ (Expr.Twin R) s.columns t.columns
  conditions : List.Forall₂ (Expr.Twin R) s.conditions t.conditions
  groupConditions : List.Forall₂ (Expr.Twin R) s.groupConditions t.groupConditions
  order : List.Forall₂ (Expr.Twin R) s.order t.order
  summary : List.Forall₂ (TwinNamed R) s.summary t.summary

/-- On twins the actions both succeed, with related results, or both fail with the same kind of error,
and they leave twins. -/
def Parallel (R : Value → Value → Prop) {α β : Type} (Q : α → β → Prop) (x : Action α)
    (y : Action β) : Prop :=
  ∀ s t : Select, s.Twin R t →
    SameOutcome Error.Twin Q (x.on s).1 (y.on t).1 ∧ (x.on s).2.Twin R (y.on t).2

variable {R : Value → Value → Prop} {α β : Type} {Q : α → β → Prop} {s t : Select} {e e' : Expr}

/-- Related results go in parallel. -/
lemma parallel_pure {a : α} {b : β} (h : Q a b) : Parallel R Q (pure a) (pure b) :=
  fun _ _ twin => ⟨.ok h, twin⟩

/-- Actions in a row go in parallel when the first ones do and the second ones do on related results. -/
lemma Parallel.bind {γ δ : Type} {Q' : γ → δ → Prop} {x : Action α} {y : Action β}
    {f : α → Action γ} {g : β → Action δ} (first : Parallel R Q x y)
    (second : ∀ {a b}, Q a b → Parallel R Q' (f a) (g b)) : Parallel R Q' (x >>= f) (y >>= g) := by
  intro s t twin
  obtain ⟨outcome, after⟩ := first s t twin
  rw [on_bind, on_bind]
  generalize x.on s = run at outcome after
  generalize y.on t = run' at outcome after
  obtain ⟨result, s⟩ := run
  obtain ⟨result', t⟩ := run'
  cases outcome with
  | ok related => exact second related s t after
  | error kind => exact ⟨.error kind, after⟩

/-- Going in parallel goes along with results and sequences. -/
lemma lifting_parallel (R : Value → Value → Prop) : Lifting (m := Action) (Parallel R) :=
  ⟨parallel_pure, .bind⟩

/-- Looking at twins gives twins. -/
lemma parallel_get : Parallel R (Twin R) get get :=
  fun _ _ twin => ⟨.ok twin, twin⟩

/-- Failures of the same kind go in parallel. -/
lemma parallel_throw {x x' : Error} (h : x.Twin x') :
    Parallel R Q (throw x : Action α) (throw x' : Action β) :=
  fun _ _ twin => ⟨.error h, twin⟩

/-- Updates that take twins to twins go in parallel. -/
lemma parallel_modify {f g : Select → Select} (h : ∀ {s t}, Twin R s t → (f s).Twin R (g t)) :
    Parallel R Eq (modify f : Action PUnit) (modify g) :=
  fun _ _ twin => ⟨.ok rfl, h twin⟩

/-- The same check goes in parallel with itself. -/
lemma parallel_ofExcept {x : Except Error α} :
    Parallel R Eq (ofExcept x : Action α) (ofExcept x) := by
  intro s t twin
  rw [on_ofExcept, on_ofExcept]
  exact ⟨.refl .same (fun _ => rfl) x, twin⟩

/-- Setting twins goes in parallel. -/
lemma parallel_set (h : s.Twin R t) : Parallel R Eq (set s : Action PUnit) (set t) :=
  fun _ _ _ => ⟨.ok rfl, h⟩

/-- Twins have the same aliases. -/
lemma Twin.aliases (h : s.Twin R t) : s.aliases = t.aliases := by
  rw [Select.aliases, Select.aliases, baseAlias, baseAlias, h.table, h.joins]

/-- Lists of named twins have the same names. -/
lemma names_eq {l l' : List (String × Expr)} (h : List.Forall₂ (TwinNamed R) l l') :
    l.map (·.1) = l'.map (·.1) :=
  map_eq_of_forall₂ (fun named => named.1) h

/-- The first entry under a name is at the same place. -/
lemma find_twin {l l' : List (String × Expr)} (h : List.Forall₂ (TwinNamed R) l l')
    (name : String) :
    Option.Rel (TwinNamed R) (l.find? (·.1 == name)) (l'.find? (·.1 == name)) := by
  induction h with
  | nil => exact .none
  | @cons a b _ _ first _ ih =>
    rw [List.find?_cons, List.find?_cons, ← first.1]
    cases a.1 == name with
    | true => exact .some first
    | false => exact ih

/-- An unknown field is the same error in twins. -/
lemma Twin.unknownField (h : s.Twin R t) (path : String) (place : Place) :
    s.unknownField path place = t.unknownField path place := by
  rw [Select.unknownField, Select.unknownField, names_eq h.computed]

/-- Paths in twins start at the same place. -/
lemma Twin.start (h : s.Twin R t) : s.start = t.start := by
  rw [Select.start, Select.start, baseAlias, baseAlias, h.table]

/-- Twins take or add the same join. -/
lemma parallel_join (mode : Resolution) (j : Join) : Parallel R Eq (join mode j) (join mode j) := by
  rw [join]
  refine parallel_get.bind fun {s t} twin => ?_
  rw [twin.joins]
  cases t.joins.find? fun k => k.isEquivalent j && mode.mayReuse k with
  | some existing => exact parallel_pure rfl
  | none =>
    have fresh : s.freshAlias j.store = t.freshAlias j.store := by
      rw [freshAlias, freshAlias, twin.aliases]
    dsimp only
    rw [fresh]
    refine Parallel.bind (parallel_set { twin with joins := rfl }) fun _ => ?_
    exact parallel_pure rfl

/-- A last segment of a path goes in parallel. -/
lemma parallel_fieldAt (path : String) (place : Place) (segment : String) :
    Parallel R Eq (fieldAt path place segment) (fieldAt path place segment) := by
  rw [fieldAt]
  cases place.table.column? segment with
  | some column => exact parallel_pure rfl
  | none =>
    refine parallel_get.bind fun twin => ?_
    rw [twin.unknownField]
    exact parallel_throw (.same _)

/-- Crossing a relation goes in parallel. -/
lemma parallel_hop (mode : Resolution) (path : String) (place : Place) (segment : String) :
    Parallel R Eq (hop mode path place segment) (hop mode path place segment) := by
  rw [hop]
  refine (parallel_fieldAt path place segment).bind ?_
  rintro column _ rfl
  cases column.relation with
  | none => exact parallel_throw (.same _)
  | some relation =>
    dsimp only
    cases mode.allowJoins with
    | false => exact parallel_throw (.same _)
    | true =>
      refine parallel_get.bind fun twin => ?_
      rw [twin.catalog]
      split
      · exact parallel_throw (.same _)
      · refine (parallel_join mode _).bind ?_
        rintro tableAlias _ rfl
        exact parallel_pure rfl

/-- A path stands for the same column in both queries, or for twins. -/
lemma parallel_resolveField (mode : Resolution) (path : String) :
    Parallel R (Expr.Twin R) (resolveField mode path) (resolveField mode path) := by
  rw [resolveField]
  refine parallel_get.bind fun {s t} twin => ?_
  have found := find_twin twin.computed (FieldPath.ofString path).first
  dsimp only
  generalize s.computed.find? _ = named at found
  generalize t.computed.find? _ = named' at found
  -- the first segment is a computed column in both queries, or in neither
  cases found with
  | @some a b found =>
    obtain ⟨name, source⟩ := a
    obtain ⟨_, source'⟩ := b
    obtain ⟨rfl, found⟩ := found
    dsimp only
    split
    · exact parallel_pure (.ref found)
    · rw [twin.unknownField, twin.start]
      exact parallel_throw (.same _)
  | none =>
    dsimp only
    rw [twin.start]
    have hops : List.Forall₂ Eq (FieldPath.ofString path).hops (FieldPath.ofString path).hops :=
      List.forall₂_same.2 fun _ _ => rfl
    have walk : Parallel R Eq ((FieldPath.ofString path).hops.foldlM (hop mode path) t.start)
        ((FieldPath.ofString path).hops.foldlM (hop mode path) t.start) := by
      refine (lifting_parallel R).foldlM ?_ rfl hops
      rintro place _ segment _ rfl rfl
      exact parallel_hop mode path place segment
    refine walk.bind ?_
    rintro place _ rfl
    refine (parallel_fieldAt path place _).bind ?_
    rintro column _ rfl
    exact parallel_pure (.column _ _ _)

/-- Nodes that are twins are resolved to twins over sources that are. -/
lemma parallel_resolveNode (mode : Resolution) (h : e.Twin R e') {xs ys : List (Action Expr)}
    (length : xs.length = e.sources.length)
    (sources : List.Forall₂ (Parallel R (Expr.Twin R)) xs ys) :
    Parallel R (Expr.Twin R) (resolveNode mode e xs) (resolveNode mode e' ys) := by
  have rebuilt := h.rebuild (lifting_parallel R) length sources
  unfold resolveNode
  rw [h.checkArity]
  refine parallel_ofExcept.bind fun _ => ?_
  have twin := h
  cases h with
  | field path => exact parallel_resolveField mode path
  | column | ref | literal | star => exact parallel_pure twin
  | aggregate h =>
    have resolved : Parallel R (List.Forall₂ (Expr.Twin R)) (xs.mapM id) (ys.mapM id) :=
      (lifting_parallel R).mapM (fun part => part) sources
    refine resolved.bind fun results => ?_
    rw [Expr.Twin.any_containsAggregate results]
    -- the error shows the arguments, and with them their values
    split
    · exact parallel_throw (.nestedAggregate _ _ _)
    · exact parallel_pure (.aggregate results)
  | _ => exact rebuilt

/-- Trees that are twins are resolved to twins. -/
theorem parallel_resolve (mode : Resolution) (h : e.Twin R e') :
    Parallel R (Expr.Twin R) (resolve mode e) (resolve mode e') := by
  rw [resolve, resolve]
  have trees : Parallel R (Expr.Twin R) (e.fold (resolveNode mode)) (e'.fold (resolveNode mode)) :=
    h.fold fun twin length sources => parallel_resolveNode mode twin length sources
  refine trees.bind fun results => ?_
  rw [results.containsAggregate]
  split
  · exact parallel_throw (.notAggregate _ _)
  · exact parallel_pure results

/-- Predicates that are twins belong into one clause. -/
lemma ofPredicate_twin (existing existing' : Dict Expr) (h : e.Twin R e') :
    Clause.ofPredicate existing e = Clause.ofPredicate existing' e' := by
  -- the search for uses of aggregates compares values, but the clause does not depend on its result
  have contains := h.containsAggregate
  cases aggregates : e'.containsAggregate with
  | true =>
    rw [aggregates] at contains
    rw [Clause.ofPredicate_eq_after_iff.2 contains, Clause.ofPredicate_eq_after_iff.2 aggregates]
  | false =>
    rw [aggregates] at contains
    rw [Clause.ofPredicate_eq_before_iff.2 contains, Clause.ofPredicate_eq_before_iff.2 aggregates]

/-- Lists that correspond still do with corresponding elements behind them. -/
lemma forall₂_concat {P : α → β → Prop} {l : List α} {l' : List β} {a : α} {b : β}
    (h : List.Forall₂ P l l') (last : P a b) : List.Forall₂ P (l ++ [a]) (l' ++ [b]) :=
  List.rel_append h (.cons last .nil)

/-- Placing twins in their clauses goes in parallel. -/
lemma parallel_place (h : e.Twin R e') : Parallel R Eq (place e) (place e') := by
  rw [place, place]
  refine parallel_get.bind fun {s t} twin => ?_
  dsimp only
  rw [ofPredicate_twin s.existingAggregates t.existingAggregates h]
  cases Clause.ofPredicate t.existingAggregates e' with
  | beforeGrouping =>
    have placed := forall₂_concat twin.conditions h
    refine Parallel.bind (parallel_set { twin with conditions := placed }) fun _ => ?_
    exact parallel_pure rfl
  | afterGrouping =>
    have placed := forall₂_concat twin.groupConditions h
    refine Parallel.bind (parallel_set { twin with groupConditions := placed }) fun _ => ?_
    exact parallel_pure rfl

/-- Annotating twins goes in parallel. -/
lemma parallel_annotate (name : String) (h : e.Twin R e') :
    Parallel R Eq (annotate name e) (annotate name e') := by
  rw [annotate, annotate]
  refine parallel_get.bind fun {s t} twin => ?_
  have taken : s.computed.any (·.1 == name) = t.computed.any (·.1 == name) := by
    have names := congrArg (List.any · (· == name)) (names_eq twin.computed)
    simpa only [List.any_map, Function.comp_def] using names
  rw [twin.table, taken]
  cases (t.table.column? name).isSome with
  | true => exact parallel_throw (.same _)
  | false =>
    cases t.computed.any (·.1 == name) with
    | true => exact parallel_throw (.same _)
    | false =>
      refine (parallel_resolve {} h).bind fun result => ?_
      exact parallel_modify fun twin =>
        { twin with computed := forall₂_concat twin.computed ⟨rfl, result⟩ }

/-- Filtering by twins goes in parallel. -/
lemma parallel_filter (h : e.Twin R e') : Parallel R Eq (filter e) (filter e') := by
  rw [filter, filter]
  refine (parallel_resolve {} h).bind fun result => ?_
  have placed := (lifting_parallel R).mapM (P := Expr.Twin R) parallel_place result.conjuncts
  rwa [List.forall₂_eq_eq_eq] at placed

/-- Excluding twins goes in parallel. -/
lemma parallel_exclude (h : e.Twin R e') : Parallel R Eq (exclude e) (exclude e') := by
  rw [exclude, exclude]
  exact (parallel_resolve {} h).bind fun result => parallel_place result.negate

/-- Selecting twins goes in parallel. -/
lemma parallel_setColumns {es es' : List Expr} (h : List.Forall₂ (Expr.Twin R) es es') :
    Parallel R Eq (setColumns es) (setColumns es') := by
  rw [setColumns, setColumns]
  have resolved := (lifting_parallel R).mapM (P := Expr.Twin R) (parallel_resolve {}) h
  refine resolved.bind fun columns => ?_
  exact parallel_modify fun twin => { twin with columns }

/-- Twins are sorted by twins. -/
lemma twin_sortKey (h : e.Twin R e') : (sortKey e).Twin R (sortKey e') := by
  have twin := h
  cases h with
  | sorted => exact twin
  | _ => exact .sorted twin

/-- Ordering by twins goes in parallel. -/
lemma parallel_orderBy {es es' : List Expr} (h : List.Forall₂ (Expr.Twin R) es es') :
    Parallel R Eq (orderBy es) (orderBy es') := by
  rw [orderBy, orderBy]
  refine (lifting_parallel R).forM (fun twin => ?_) h
  refine (parallel_resolve {} twin).bind fun result => ?_
  exact parallel_modify fun twin =>
    { twin with order := forall₂_concat twin.order (twin_sortKey result) }

/-- Summarizing twins goes in parallel. -/
lemma parallel_summarize (name : String) (h : e.Twin R e') :
    Parallel R Eq (summarize name e) (summarize name e') := by
  rw [summarize, summarize]
  refine (parallel_resolve _ h).bind fun result => ?_
  exact parallel_modify fun twin =>
    { twin with summary := forall₂_concat twin.summary ⟨rfl, result⟩ }

end Select

end BoundSql
