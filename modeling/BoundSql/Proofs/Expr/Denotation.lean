import BoundSql.Proofs.Expr.Truth

/-!
# What trees denote

Trees of values are built from columns, literals and arithmetic, trees of predicates from comparisons
of such values and from conjunctions and disjunctions, negated or not. References and declared types
may stand around both. An `Interpretation` says what columns, bound values and operators stand for;
`Expr.value?` and `Expr.truth?` say what a tree stands for then.
-/

namespace BoundSql

/-- What columns, bound values, operators and comparisons stand for. -/
structure Interpretation (α : Type) where
  column (tableAlias name : String) : α
  literal (value : Value) : α
  arith (op : ArithOp) (left right : α) : α
  compare (op : CompareOp) (left right : α) : Truth

variable {α : Type}

namespace Connective

/-- A connective over one part is this part. -/
@[simp] lemma truth_singleton (c : Connective) (t : Truth) : c.truth [t] = t := by
  cases c <;> cases t <;> rfl

/-- The first part against all others together. -/
lemma truth_cons (c : Connective) (t : Truth) (ts : List Truth) :
    c.truth (t :: ts) = c.truth [t, c.truth ts] := by
  cases c with
  | and => exact congrArg t.and (Truth.and_yes _).symm
  | or =>
    show t.or (Truth.any ts) = t.or ((Truth.any ts).or .no)
    cases Truth.any ts <;> rfl

end Connective

namespace Expr

/-- The values: columns, literals, and arithmetic over values, with references and declared types around
them. -/
inductive IsValue : Expr → Prop where
  | column (tableAlias name type) : IsValue (.column tableAlias name type)
  | literal (value type) : IsValue (.literal value type)
  | arith {left right} (op type) :
      IsValue left → IsValue right → IsValue (.arith left op right type)
  | ref {source} (name) : IsValue source → IsValue (.ref name source)
  | typed {source} (type) : IsValue source → IsValue (.typed source type)

/-- The predicates: comparisons of values, and connectives over predicates, with references and declared
types around them. -/
inductive IsPredicate : Expr → Prop where
  | compare {left right} (op) :
      IsValue left → IsValue right → IsPredicate (.compare left op right)
  | logic {parts} (connective negated) :
      (∀ p ∈ parts, IsPredicate p) → IsPredicate (.logic connective parts negated)
  | ref {source} (name) : IsPredicate source → IsPredicate (.ref name source)
  | typed {source} (type) : IsPredicate source → IsPredicate (.typed source type)

/-- The value of a tree of values. -/
def value? (I : Interpretation α) : Expr → Option α :=
  fold fun e sources =>
    match e, sources with
    | .column tableAlias name _, _ => some (I.column tableAlias name)
    | .literal value _, _ => some (I.literal value)
    | .arith _ op _ _, [left, right] => do return I.arith op (← left) (← right)
    | .ref .., [x] | .typed .., [x] => x
    | _, _ => none

/-- The truth of a tree of predicates. -/
def truth? (I : Interpretation α) : Expr → Option Truth :=
  fold fun e sources =>
    match e, sources with
    | .compare left op right, _ => do return I.compare op (← left.value? I) (← right.value? I)
    | .logic connective _ negated, parts => do
      let t := connective.truth (← parts.mapM id)
      return if negated then t.not else t
    | .ref .., [t] | .typed .., [t] => t
    | _, _ => none

variable {I : Interpretation α}

/-- Arithmetic has a value when both its operands have one. -/
lemma value?_arith {left right : Expr} {x y : α} (op : ArithOp) (type : Option SqlType)
    (hl : left.value? I = some x) (hr : right.value? I = some y) :
    (arith left op right type).value? I = some (I.arith op x y) := by
  rw [value?, fold_eq]
  show (do return I.arith op (← left.value? I) (← right.value? I)) = _
  rw [hl, hr]
  rfl

/-- A comparison has a truth when both its operands have a value. -/
lemma truth?_compare {left right : Expr} {x y : α} (op : CompareOp)
    (hl : left.value? I = some x) (hr : right.value? I = some y) :
    (compare left op right).truth? I = some (I.compare op x y) := by
  rw [truth?, fold_eq]
  show (do return I.compare op (← left.value? I) (← right.value? I)) = _
  rw [hl, hr]
  rfl

/-- A connective has a truth when all its parts have one. -/
lemma truth?_logic {parts : List Expr} {ts : List Truth} (c : Connective) (negated : Bool)
    (h : List.Forall₂ (fun p t => p.truth? I = some t) parts ts) :
    (logic c parts negated).truth? I =
      some (if negated then (c.truth ts).not else c.truth ts) := by
  have parts_eq : (parts.map (truth? I)).mapM id = some ts := by
    induction h with
    | nil => rfl
    | cons first _ ih => rw [List.map_cons, List.mapM_cons, first, ih]; rfl
  rw [truth?, fold_eq]
  show (do
    let t := c.truth (← (parts.map (truth? I)).mapM id)
    return if negated then t.not else t) = _
  rw [parts_eq]
  rfl

end Expr

end BoundSql
