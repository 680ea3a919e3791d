import BoundSql.Clause
import BoundSql.Expr.Aggregation
import BoundSql.Proofs.Expr.Typing
import BoundSql.Proofs.Lifting
import BoundSql.Rendering

/-!
# Twins

Two trees are twins when they differ only in the values of their literals. How a value is related
to the one at its place in the twin is a parameter. What is computed over two twins is related when
it is node by node (`Twin.fold`), and what does not look at values is the same for both.
-/

namespace BoundSql

/-- Values of one variant. -/
def Value.SameVariant : Value → Value → Prop
  | .null, .null | .boolean _, .boolean _ | .integer _, .integer _ | .float _, .float _
  | .decimal _, .decimal _ | .text _, .text _ => True
  | _, _ => False

/-- Literals of one variant have one type. -/
lemma Value.SameVariant.type? {v v' : Value} (h : v.SameVariant v') : v.type? = v'.type? := by
  cases v <;> cases v' <;> first | rfl | cases h

namespace Expr

/-- The trees are the same but for the values of literals, which are related place by place. -/
inductive Twin (R : Value → Value → Prop) : Expr → Expr → Prop where
  | field (path) : Twin R (.field path) (.field path)
  | column (tableAlias name type) :
      Twin R (.column tableAlias name type) (.column tableAlias name type)
  | ref {name s s'} : Twin R s s' → Twin R (.ref name s) (.ref name s')
  | literal {v v' type} : R v v' → Twin R (.literal v type) (.literal v' type)
  | star : Twin R .star .star
  | arith {l l' op r r' type} : Twin R l l' → Twin R r r' →
      Twin R (.arith l op r type) (.arith l' op r' type)
  | call {head args args'} : List.Forall₂ (Twin R) args args' →
      Twin R (.call head args) (.call head args')
  | aggregate {kind head args args' distinct summary} : List.Forall₂ (Twin R) args args' →
      Twin R (.aggregate kind head args distinct summary)
        (.aggregate kind head args' distinct summary)
  | sorted {s s' direction nulls} : Twin R s s' →
      Twin R (.sorted s direction nulls) (.sorted s' direction nulls)
  | compare {l l' op r r'} : Twin R l l' → Twin R r r' →
      Twin R (.compare l op r) (.compare l' op r')
  | logic {connective parts parts' negated} : List.Forall₂ (Twin R) parts parts' →
      Twin R (.logic connective parts negated) (.logic connective parts' negated)
  | typed {s s' type} : Twin R s s' → Twin R (.typed s type) (.typed s' type)

namespace Twin

variable {R : Value → Value → Prop} {e e' : Expr} {es es' : List Expr}

/-- The sources of twins are twins, one by one. -/
lemma sources (h : e.Twin R e') : List.Forall₂ (Twin R) e.sources e'.sources := by
  cases h with
  | field | column | literal | star => exact .nil
  | ref h | sorted h | typed h => exact .cons h .nil
  | arith l r | compare l r => exact .cons l (.cons r .nil)
  | call h | aggregate h | logic h => exact h

/-- But for literals, the twin of a node is the node over the sources of the twin. -/
lemma eq_replaceSources (h : e.Twin R e') (other : ∀ v type, e ≠ .literal v type) :
    e' = e.replaceSources e'.sources := by
  cases h with
  | literal => exact absurd rfl (other _ _)
  | _ => rfl

/-- Twins are of one kind. -/
lemma kind (h : e.Twin R e') : e.kind = e'.kind := by
  cases h <;> rfl

/-- Twins are aggregates together. -/
lemma isAggregate (h : e.Twin R e') : e.isAggregate = e'.isAggregate := by
  cases h <;> rfl

/-- Twins pass the check of the arity together. -/
lemma checkArity (h : e.Twin R e') : e.checkArity = e'.checkArity := by
  have length := h.sources.length_eq
  have arity : e.arity = e'.arity := by
    cases h with
    | @call head _ _ h => exact congrArg (head.arity.map UInt64.toNat).getD length
    | logic => exact length
    | _ => rfl
  rw [Expr.checkArity, Expr.checkArity, expectSources, expectSources, length, arity, h.kind]

/-- Twins are rebuilt to twins from actions for their sources that give twins. -/
lemma rebuild {m : Type → Type} [Monad m] [LawfulMonad m]
    {L : ∀ {α β : Type}, (α → β → Prop) → m α → m β → Prop} (lifting : Lifting L)
    {xs ys : List (m Expr)} (h : e.Twin R e') (length : xs.length = e.sources.length)
    (sources : List.Forall₂ (L (Twin R)) xs ys) : L (Twin R) (e.rebuild xs) (e'.rebuild ys) := by
  have twin := h
  cases h with
  | field | column | literal | star => exact lifting.pure twin
  | ref | sorted | typed =>
    obtain ⟨x, rfl⟩ := List.length_eq_one_iff.1 length
    obtain _ | ⟨first, ⟨⟩⟩ := sources
    refine lifting.bind first fun source => lifting.pure ?_
    constructor
    exact source
  | arith | compare =>
    obtain ⟨x, y, rfl⟩ := List.length_eq_two.1 length
    obtain _ | ⟨first, _ | ⟨second, ⟨⟩⟩⟩ := sources
    refine lifting.bind first fun left => lifting.bind second fun right => lifting.pure ?_
    constructor
    · exact left
    · exact right
  | call | aggregate | logic =>
    refine lifting.bind (lifting.mapM (fun part => part) sources) fun parts => lifting.pure ?_
    constructor
    exact parts

/-- What holds of two nodes that are twins whenever it holds of their sources holds of two trees. -/
lemma induction {P : Expr → Expr → Prop} (h : e.Twin R e')
    (node : ∀ {e e'}, e.Twin R e' → List.Forall₂ P e.sources e'.sources → P e e') : P e e' := by
  induction e using Expr.induction generalizing e' with
  | node e ih =>
    refine node h (((List.forall₂_and_left _ _).2 ⟨ih, h.sources⟩).imp ?_)
    rintro s s' ⟨ih, part⟩
    exact ih part

section

variable {α : Type} {f : Expr → List α → α}

/-- What is computed over two twins is related when it is for each two nodes that are twins, over
related values for their sources. -/
lemma fold {Q : α → α → Prop} (h : e.Twin R e')
    (node : ∀ {e e' values values'}, e.Twin R e' → values.length = e.sources.length →
      List.Forall₂ Q values values' → Q (f e values) (f e' values')) :
    Q (e.fold f) (e'.fold f) := by
  refine h.induction (P := fun e e' => Q (e.fold f) (e'.fold f)) fun {e e'} twin parts => ?_
  rw [fold_eq, fold_eq]
  refine node twin (List.length_map _) ?_
  rwa [List.forall₂_map_left_iff, List.forall₂_map_right_iff]

/-- A fold that does not look at literals gives one result on twins. -/
lemma fold_eq_fold (h : e.Twin R e')
    (node : ∀ {e e' values}, e.Twin R e' → f e values = f e' values) : e.fold f = e'.fold f := by
  refine h.fold fun twin _ same => ?_
  rw [List.forall₂_eq_eq_eq] at same
  rw [same, node twin]

end

/-- Twins contain an aggregate together. -/
lemma containsAggregate (h : e.Twin R e') : e.containsAggregate = e'.containsAggregate :=
  h.fold_eq_fold fun h => by rw [h.isAggregate]

/-- Lists of twins contain an aggregate together. -/
lemma any_containsAggregate (h : List.Forall₂ (Twin R) es es') :
    es.any (·.containsAggregate) = es'.any (·.containsAggregate) := by
  induction h with
  | nil => rfl
  | cons first _ ih => rw [List.any_cons, List.any_cons, first.containsAggregate, ih]

/-- Twins have the same bare columns. -/
lemma bareColumns (h : e.Twin R e') : e.bareColumns = e'.bareColumns :=
  h.fold_eq_fold fun h => by cases h <;> rfl

/-- Twins are arithmetic together. -/
lemma isArithmetic (h : e.Twin R e') : e.isArithmetic = e'.isArithmetic := by
  refine h.induction (P := fun e e' => e.isArithmetic = e'.isArithmetic) fun twin parts => ?_
  cases twin with
  | ref | typed =>
    obtain _ | ⟨source, ⟨⟩⟩ := parts
    exact source
  | _ => rfl

/-- The negations of twins are twins. -/
lemma negate (h : e.Twin R e') : e.negate.Twin R e'.negate := by
  have twin := h
  cases h with
  | logic h => exact .logic h
  | _ => exact .logic (.cons twin .nil)

/-- The conjuncts of twins are twins, one by one. -/
lemma conjuncts (h : e.Twin R e') : List.Forall₂ (Twin R) e.conjuncts e'.conjuncts := by
  refine h.induction (P := fun e e' => List.Forall₂ (Twin R) e.conjuncts e'.conjuncts) ?_
  intro e e' twin parts
  have alone : List.Forall₂ (Twin R) [e] [e'] := .cons twin .nil
  cases twin with
  | @logic connective _ _ negated =>
    cases connective with
    | or => exact alone
    | and =>
      cases negated with
      | true => exact alone
      | false =>
        rw [Expr.conjuncts, Expr.conjuncts, conjunctsList_eq_flatMap, conjunctsList_eq_flatMap]
        exact List.rel_flatMap parts fun _ _ part => part
  | _ => exact alone

/-- Twins have the same type when related values are of one variant. -/
lemma type? (same : ∀ v v', R v v' → v.SameVariant v') (h : e.Twin R e') :
    e.type? = e'.type? := by
  refine h.induction (P := fun e e' => e.type? = e'.type?) fun {e e'} twin parts => ?_
  cases twin with
  | literal related => rw [Expr.type?, Expr.type?, (same _ _ related).type?]
  | _ => exact (type?_replaceSources parts).symm

end Twin

end Expr

end BoundSql
