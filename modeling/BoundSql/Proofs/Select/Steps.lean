import BoundSql.Proofs.Select.Operations
import BoundSql.Select.Statement
import Mathlib.Logic.Relation

/-!
# Steps of operations

All operations are made of two kinds of `Step`: a tree is resolved, which can only add joins, or the
results of resolving trees are stored (`Stores`). `Operation.steps` takes every operation apart into
steps, so that what each step keeps holds after any operations (`after_induction`). A property of the
tables alone is kept when the paths keep it (`after_tables`). `Kept` is what it takes for a property of
stored nodes to be kept, and `Stable` what it takes when the property does not depend on the query.
-/

namespace BoundSql.Select

open Select.Action

/-- The expressions that the query stores. -/
def stored (s : Select) : List Expr :=
  s.columns ++ s.computed.map (·.2) ++ s.conditions ++ s.groupConditions ++ s.order ++
    s.summary.map (·.2)

/-- The trees that an operation is given. -/
def Operation.trees : Operation → List Expr
  | .annotate _ e | .filter e | .exclude e | .summarize _ e | .resolve _ e => [e]
  | .setColumns es | .orderBy es => es

/-- Trees are resolved one after another, all of them with success. -/
inductive Resolved (given : Expr → Prop) : Select → List Expr → Select → Prop where
  | nil {s} : Resolved given s [] s
  | cons {mode e s r t rs u} : given e → (resolve mode e).on s = (.ok r, t) →
      Resolved given t rs u → Resolved given s (r :: rs) u

/-- Results of resolving trees are stored. -/
inductive Stores : List Expr → Select → Select → Prop where
  | computed (name r t) : Stores [r] t { t with computed := t.computed ++ [(name, r)] }
  | conjuncts (r t) : Stores [r] t (t.withPredicates r.conjuncts)
  | negation (r t) : Stores [r] t (t.withPredicates [r.negate])
  | columns (rs t) : Stores rs t { t with columns := rs }
  | order (r t) : Stores [r] t { t with order := t.order ++ [sortKey r] }
  | summary (name r t) : Stores [r] t { t with summary := t.summary ++ [(name, r)] }

/-- A tree is resolved, with success or not, or the results of resolving trees are stored. -/
inductive Step (given : Expr → Prop) : Select → Select → Prop where
  | resolve (mode : Resolution) {e s} : given e → Step given s ((resolve mode e).on s).2
  | store {s rs t u} : Resolved given s rs t → Stores rs t u → Step given s u

/-- Any number of steps. -/
def Steps (given : Expr → Prop) : Select → Select → Prop :=
  Relation.ReflTransGen (Step given)

variable {given : Expr → Prop} {s t u : Select}

/-- A tree that is resolved and stored when it resolves makes a step. -/
lemma steps_of_resolve {e : Expr} (mode : Resolution) (mem : given e) {x : Action PUnit}
    (stores : ∀ {r t}, (resolve mode e).on s = (.ok r, t) → Stores [r] t (x.on s).2)
    (error : ∀ {e' t}, (resolve mode e).on s = (.error e', t) → (x.on s).2 = t) :
    Steps given s (x.on s).2 := by
  refine .single ?_
  rcases on_cases (resolve mode e) s with ⟨r, t, run⟩ | ⟨e', t, run⟩
  · exact .store (.cons mem run .nil) (stores run)
  · have state : (x.on s).2 = ((resolve mode e).on s).2 := by rw [error run, run]
    rw [state]
    exact .resolve mode mem

/-- Trees that are resolved in a row all succeed, or make steps up to the one that fails. -/
lemma mapM_resolve_cases {mode : Resolution} {es : List Expr} (all : ∀ e ∈ es, given e) (s : Select) :
    (∃ rs t, (es.mapM (Select.resolve mode)).on s = (.ok rs, t) ∧ Resolved given s rs t) ∨
    ∃ e t, (es.mapM (Select.resolve mode)).on s = (.error e, t) ∧ Steps given s t := by
  induction es generalizing s with
  | nil => exact .inl ⟨[], s, on_mapM_nil _ _, .nil⟩
  | cons e es ih =>
    obtain ⟨mem, all⟩ := List.forall_mem_cons.1 all
    rw [List.mapM_cons]
    rcases on_cases (Select.resolve mode e) s with ⟨r, t, run⟩ | ⟨x, t, run⟩
    · rw [on_bind_ok run]
      rcases ih all t with ⟨rs, u, run', resolved⟩ | ⟨x, u, run', steps⟩
      · exact .inl ⟨r :: rs, u, by rw [on_bind_ok run', on_pure], .cons mem run resolved⟩
      · refine .inr ⟨x, u, by rw [on_bind_error run'], .head ?_ steps⟩
        have step := Step.resolve (s := s) mode mem
        rwa [run] at step
    · refine .inr ⟨x, t, by rw [on_bind_error run], .single ?_⟩
      have step := Step.resolve (s := s) mode mem
      rwa [run] at step

/-- Sort keys are added by steps. -/
lemma orderBy_steps {es : List Expr} (all : ∀ e ∈ es, given e) (s : Select) :
    Steps given s ((orderBy es).on s).2 := by
  induction es generalizing s with
  | nil => exact .refl
  | cons e es ih =>
    obtain ⟨mem, all⟩ := List.forall_mem_cons.1 all
    rw [on_orderBy_cons]
    rcases on_cases (Select.resolve {} e) s with ⟨r, t, run⟩ | ⟨x, t, run⟩
    · rw [run]
      exact .head (.store (.cons mem run .nil) (.order r t)) (ih all _)
    · have step := Step.resolve (s := s) {} mem
      rw [run] at step ⊢
      exact .single step

/-- Every operation is made of steps with its trees. -/
lemma Operation.steps (operation : Operation) (all : ∀ e ∈ operation.trees, given e) (s : Select) :
    Steps given s (operation.action.on s).2 := by
  cases operation with
  | annotate name e =>
    -- a name that is refused takes no step, and any other resolves the tree
    have mem := all _ (List.mem_singleton_self e)
    cases field : (s.table.column? name).isSome with
    | true =>
      rw [action, on_annotate, if_pos field]
      exact .refl
    | false =>
      cases taken : s.computed.any (·.1 == name) with
      | true =>
        rw [action, on_annotate, if_neg (by simp [field]), if_pos taken]
        exact .refl
      | false =>
        have run : (Select.annotate name e).on s = _ := on_annotate name e s
        rw [if_neg (by simp [field]), if_neg (by simp [taken])] at run
        refine steps_of_resolve {} mem (fun {r t} h => ?_) fun h => ?_
        · rw [action, run, h]
          exact .computed name r t
        · rw [action, run, h]
  | filter p =>
    refine steps_of_resolve {} (all _ (List.mem_singleton_self p)) (fun {r t} h => ?_) fun h => ?_
    · rw [action, on_discard_snd, on_filter, h]
      exact .conjuncts r t
    · rw [action, on_discard_snd, on_filter, h]
  | exclude p =>
    refine steps_of_resolve {} (all _ (List.mem_singleton_self p)) (fun {r t} h => ?_) fun h => ?_
    · rw [action, on_discard_snd, on_exclude, h]
      exact .negation r t
    · rw [action, on_discard_snd, on_exclude, h]
  | setColumns es =>
    rw [action, on_setColumns]
    have all : ∀ e ∈ es, given e := all
    rcases mapM_resolve_cases all s with ⟨rs, t, run, resolved⟩ | ⟨x, t, run, steps⟩
    · rw [run]
      exact .single (.store resolved (.columns rs t))
    · rw [run]
      exact steps
  | orderBy es => exact orderBy_steps all s
  | summarize name e =>
    refine steps_of_resolve { summarize := true } (all _ (List.mem_singleton_self e))
      (fun {r t} h => ?_) fun h => ?_
    · rw [action, on_summarize, h]
      exact .summary name r t
    · rw [action, on_summarize, h]
  | resolve mode e =>
    rw [action, on_discard_snd]
    exact .single (.resolve mode (all _ (List.mem_singleton_self e)))

/-- What every step keeps, all of them keep. -/
lemma Steps.keep {P : Select → Prop} (step : ∀ {s t}, P s → Step given s t → P t)
    (steps : Steps given s t) (start : P s) : P t := by
  induction steps with
  | refl => exact start
  | tail _ single ih => exact step ih single

/-- What each step with trees like those of the operations keeps holds after all of them. -/
theorem after_induction {P : Select → Prop} {operations : List Operation}
    (all : ∀ operation ∈ operations, ∀ e ∈ operation.trees, given e)
    (step : ∀ {s t}, P s → Step given s t → P t) (start : P s) : P (s.after operations) := by
  induction operations generalizing s with
  | nil => exact start
  | cons operation rest ih =>
    have steps := operation.steps (all operation List.mem_cons_self) s
    exact ih (fun o mem => all o (List.mem_cons_of_mem operation mem)) (steps.keep step start)

/-- Resolving trees adds joins, and nothing else. -/
lemma Resolved.grown {rs : List Expr} (h : Resolved given s rs t) : Grown s t := by
  induction h with
  | nil => exact .refl _
  | cons _ run _ ih => exact (resolve_grown run).trans ih

/-- More joins leave the stored trees as they are. -/
lemma Grown.stored_eq (h : Grown s t) : t.stored = s.stored := by
  obtain ⟨added, rfl⟩ := h
  rfl

/-- Storing leaves the tables of the query as they are. -/
lemma Stores.tables {rs : List Expr} (h : Stores rs t u) :
    u.catalog = t.catalog ∧ u.table = t.table ∧ u.joins = t.joins := by
  cases h <;> exact ⟨rfl, rfl, rfl⟩

/-- How an operation resolves its trees. -/
def Operation.mode : Operation → Resolution
  | .summarize .. => { summarize := true }
  | .resolve mode _ => mode
  | _ => {}

section

variable {P : Select → Prop} {mode : Resolution}

/-- What every path keeps is kept by resolving a tree, whether that succeeds or fails. -/
lemma resolve_keeps (field : ∀ path {s}, P s → P ((resolveField mode path).on s).2) (h : P s)
    (e : Expr) : P ((resolve mode e).on s).2 := by
  obtain ⟨done, -, state⟩ := (follows_resolve mode e).state s
  rw [← state]
  exact on_mapM_related (R := fun s t => P s → P t) (fun _ => id)
    (fun first second => second ∘ first) (fun path _ _ h => field path h) s h

variable (tables : ∀ {s t}, P s → t.catalog = s.catalog → t.table = s.table → t.joins = s.joins → P t)
include tables

/-- A property of the tables of a query that the paths of an operation keep is kept by it. -/
lemma Operation.keeps (operation : Operation)
    (field : ∀ path {s}, P s → P ((resolveField operation.mode path).on s).2) (h : P s) :
    P (operation.action.on s).2 := by
  have resolve {e : Expr} {s t : Select} {x : Except Error Expr} (h : P s)
      (run : (Select.resolve operation.mode e).on s = (x, t)) : P t := by
    have keeps := resolve_keeps field h e
    rwa [run] at keeps
  cases operation with
  | annotate name e =>
    rw [action, on_annotate]
    split_ifs
    · exact h
    · exact h
    · split <;> rename_i run
      · exact tables (resolve h run) rfl rfl rfl
      · exact resolve h run
  | filter =>
    rw [action, on_discard_snd, on_filter]
    split <;> rename_i run
    · exact tables (resolve h run) rfl rfl rfl
    · exact resolve h run
  | exclude =>
    rw [action, on_discard_snd, on_exclude]
    split <;> rename_i run
    · exact tables (resolve h run) rfl rfl rfl
    · exact resolve h run
  | setColumns es =>
    have row : P ((es.mapM (Select.resolve {})).on s).2 :=
      on_mapM_related (R := fun s t => P s → P t) (fun _ => id)
        (fun first second => second ∘ first) (fun e _ s h => resolve h rfl) s h
    rw [action, on_setColumns]
    split <;> rename_i run <;> rw [run] at row
    · exact tables row rfl rfl rfl
    · exact row
  | orderBy es =>
    rw [action]
    -- each key is stored before the next one is resolved
    induction es generalizing s with
    | nil => exact h
    | cons e es ih =>
      rw [on_orderBy_cons]
      split <;> rename_i run
      · exact ih (tables (resolve h run) rfl rfl rfl) field resolve
      · exact resolve h run
  | summarize =>
    rw [action, on_summarize]
    split <;> rename_i run
    · exact tables (resolve h run) rfl rfl rfl
    · exact resolve h run
  | resolve mode e =>
    rw [action, on_discard_snd]
    exact resolve h rfl

/-- A property of the tables of a query that the paths of all operations keep holds after them. -/
theorem after_tables {operations : List Operation}
    (field : ∀ operation ∈ operations, ∀ path {s}, P s →
      P ((resolveField operation.mode path).on s).2)
    (start : P s) : P (s.after operations) := by
  induction operations generalizing s with
  | nil => exact start
  | cons operation rest ih =>
    obtain ⟨first, later⟩ := List.forall_mem_cons.1 field
    exact ih later (operation.keeps tables first start)

end

/-- The sort key of an expression has its nodes, below a root of its own if need be. -/
lemma throughout_sortKey {p : Expr → Prop} {e : Expr} (h : e.Throughout p)
    (sorted : ∀ source direction nulls, p (.sorted source direction nulls)) :
    (sortKey e).Throughout p := by
  cases e with
  | sorted => exact h
  | _ => exact .of_source rfl (sorted _ _ _) h

/-- What is stored afterwards was stored before, or is made from a result. -/
lemma Stores.stored_cases {rs : List Expr} (h : Stores rs t u) {e : Expr} (mem : e ∈ u.stored) :
    e ∈ t.stored ∨ ∃ r ∈ rs, e = r ∨ e ∈ r.conjuncts ∨ e = r.negate ∨ e = sortKey r := by
  cases h with
  | computed name r =>
    simp only [stored, List.map_append, List.mem_append, List.map_cons, List.map_nil] at mem ⊢
    grind
  | conjuncts r =>
    simp only [stored, withPredicates, List.mem_append, List.mem_filter] at mem ⊢
    grind
  | negation r =>
    simp only [stored, withPredicates, List.mem_append, List.mem_filter] at mem ⊢
    grind
  | columns =>
    simp only [stored, List.mem_append] at mem ⊢
    grind
  | order r =>
    simp only [stored, List.mem_append] at mem ⊢
    grind
  | summary name r =>
    simp only [stored, List.map_append, List.mem_append, List.map_cons, List.map_nil] at mem ⊢
    grind

/-- What holds of the stored nodes and of those of the results holds of all that are stored then.
New roots are predicates and sort keys. -/
lemma Stores.throughout {p : Expr → Prop} {rs : List Expr} (h : Stores rs t u)
    (logic : ∀ c parts negated, p (.logic c parts negated))
    (sorted : ∀ source direction nulls, p (.sorted source direction nulls))
    (old : ∀ e ∈ t.stored, e.Throughout p) (new : ∀ r ∈ rs, r.Throughout p) :
    ∀ e ∈ u.stored, e.Throughout p := by
  intro e mem
  rcases h.stored_cases mem with before | ⟨r, result, rfl | conjunct | rfl | rfl⟩
  · exact old e before
  · exact new e result
  · exact (new r result).within (.of_mem_conjuncts conjunct)
  · exact (new r result).negate logic
  · exact throughout_sortKey (new r result) sorted

/-- What holds of the stored nodes and of the columns of the base table holds of all that a query
selects. -/
lemma throughout_selectList {p : Expr → Prop} (stored : ∀ e ∈ s.stored, e.Throughout p)
    (base : ∀ column ∈ s.table.columns, p (.column s.baseAlias column.store (some column.type))) :
    ∀ e ∈ s.selectList, e.Throughout p := by
  intro e mem
  rw [selectList] at mem
  split at mem
  · obtain ⟨column, inTable, rfl⟩ := List.mem_map.1 mem
    exact .of_leaf rfl (base column inTable)
  · apply stored
    simp [Select.stored, mem]

/-- A property of queries, and one of nodes in a query, that resolving trees of a kind keeps. The trees
have no references of their own, and nodes other than their fields have the property over the sources
that they accept. -/
structure Kept (given : Expr → Prop) (I : Select → Prop) (p : Select → Expr → Prop) : Prop where
  /-- Paths keep the property of the query. -/
  field : ∀ mode path {s}, I s → I ((resolveField mode path).on s).2
  /-- What a path resolves to has the property of nodes throughout. -/
  answer : ∀ {mode path s r t}, I s → (resolveField mode path).on s = (.ok r, t) →
    r.Throughout (p t)
  /-- More joins keep the property of nodes. -/
  grown : ∀ {s t n}, Grown s t → p s n → p t n
  plain : ∀ {e}, given e → e.Throughout (·.isRef = false)
  node : ∀ {e m : Expr} {sources}, given e → m.Within e → m.Accepts sources →
    ∀ s summarize, p s (m.rebound summarize sources)

section

variable {I : Select → Prop} {p : Select → Expr → Prop} {mode : Resolution} {e r : Expr}

/-- Resolving a tree keeps the property of the query, whether it succeeds or fails. -/
lemma Kept.resolve (kept : Kept given I p) (h : I s) (mode : Resolution) (e : Expr) :
    I ((resolve mode e).on s).2 :=
  resolve_keeps (kept.field mode) h e

/-- What a tree resolves to has the property of nodes throughout. -/
lemma Kept.result (kept : Kept given I p) (mem : given e) (h : I s)
    (run : (Select.resolve mode e).on s = (.ok r, t)) : r.Throughout (p t) := by
  obtain ⟨answers, fields, resolves, -⟩ := (follows_resolve mode e).ok run
  -- an answer keeps its property while the later paths add joins
  obtain ⟨-, answered, -⟩ := on_mapM_ok (I := I) (Q := fun t a => a.Throughout (p t))
    (fun {path s a t} h run => by
      have state := kept.field mode path h
      rw [run] at state
      refine ⟨state, kept.answer h run, fun _ old n within => ?_⟩
      exact kept.grown (resolveField_grown run) (old n within))
    h fields
  refine resolves.throughout answered (fun m within isRef => ?_) fun m sources within accepts => ?_
  · -- the tree has no references
    rw [kept.plain mem m within] at isRef
    contradiction
  · exact kept.node mem within accepts t mode.summarize

/-- Trees that are resolved in a row keep both properties. -/
lemma Kept.resolved (kept : Kept given I p) {rs : List Expr} (resolved : Resolved given s rs t)
    (h : I s) : I t ∧ ∀ r ∈ rs, r.Throughout (p t) := by
  induction resolved with
  | nil => exact ⟨h, by simp⟩
  | @cons mode e s r t rs u mem run later ih =>
    have state := kept.resolve h mode e
    rw [run] at state
    obtain ⟨keeps, results⟩ := ih state
    refine ⟨keeps, fun r' mem' => ?_⟩
    rcases List.mem_cons.1 mem' with rfl | mem'
    · exact fun n within => kept.grown later.grown (kept.result mem h run n within)
    · exact results r' mem'

end

/-- A property of nodes that holds of all stored ones as long as trees of a kind are resolved: of the
columns and references that paths stand for, of the nodes of the trees, and of the roots that storing
adds. -/
structure Stable (given p : Expr → Prop) : Prop where
  plain : ∀ {e}, given e → e.Throughout (·.isRef = false)
  node : ∀ {e m : Expr} {sources}, given e → m.Within e → m.Accepts sources →
    ∀ summarize, p (m.rebound summarize sources)
  column : ∀ tableAlias name type, p (.column tableAlias name type)
  ref : ∀ name source, p (.ref name source)
  logic : ∀ connective parts negated, p (.logic connective parts negated)
  sorted : ∀ source direction nulls, p (.sorted source direction nulls)

section

variable {p : Expr → Prop}

/-- What a path resolves to has the property when all that is stored has it. -/
lemma Stable.answer (stable : Stable given p) {mode : Resolution} {path : String} {r : Expr}
    (h : ∀ e ∈ s.stored, e.Throughout p) (run : (resolveField mode path).on s = (.ok r, t)) :
    r.Throughout p := by
  rcases resolveField_cases mode path s with
    ⟨name, source, run', found, -⟩ | ⟨place, column, u, run', -⟩ | ⟨_, _, _, _, run', -⟩
  · cases run'.symm.trans run
    have computed : source ∈ s.computed.map (·.2) :=
      List.mem_map_of_mem (List.mem_of_find?_eq_some found)
    exact .of_source rfl (stable.ref name source) (h source (by simp [stored, computed]))
  · cases run'.symm.trans run
    exact .of_leaf rfl (stable.column _ _ _)
  · cases run'.symm.trans run

/-- A stable property of nodes is kept while trees of the kind are resolved. -/
lemma Stable.kept (stable : Stable given p) :
    Kept given (fun s => ∀ e ∈ s.stored, e.Throughout p) fun _ => p where
  field mode path s h := by
    have grown : Grown s ((resolveField mode path).on s).2 := resolveField_grown rfl
    rwa [grown.stored_eq]
  answer := stable.answer
  grown _ holds := holds
  plain := stable.plain
  node given within accepts _ := stable.node given within accepts

/-- Every step keeps the property. -/
lemma Stable.step (stable : Stable given p) (step : Step given s t)
    (h : ∀ e ∈ s.stored, e.Throughout p) : ∀ e ∈ t.stored, e.Throughout p := by
  cases step with
  | resolve mode => exact stable.kept.resolve h mode _
  | store resolved stores =>
    obtain ⟨keeps, results⟩ := stable.kept.resolved resolved h
    exact stores.throughout stable.logic stable.sorted keeps results

end

/-- The query for all rows of a table stores nothing yet. -/
lemma eq_of_ofTable {c : Catalog} {name : String} (base : ofTable c name = .ok s) :
    ∃ table, s = ⟨c, table, [], [], [], [], [], [], []⟩ := by
  rw [ofTable] at base
  split at base
  · cases base
    exact ⟨_, rfl⟩
  · cases base

/-- People, their pay and their superiors, in a table whose name looks like an invented alias. -/
def staff : Table :=
  ⟨"person", "T2", [.plain "name" .text, .plain "pay" .integer, .foreignKey "boss" ⟨"person", "id"⟩]⟩

/-- All people, from a catalog of the one table. -/
def allStaff : Select :=
  ⟨⟨(∅ : Dict Table).insert "person" staff⟩, staff, [], [], [], [], [], [], []⟩

/-- The query of all staff is the one that starts from the table of persons. -/
lemma ofTable_allStaff : ofTable allStaff.catalog "person" = .ok allStaff := rfl

end BoundSql.Select
