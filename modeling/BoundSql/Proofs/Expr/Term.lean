import BoundSql.Expr.Basic
import Mathlib.Tactic.Lemma

/-!
# Terms and what they denote

Terms are built from columns and literals by arithmetic, comparisons, conjunctions and disjunctions,
negated or not; references and declared types may stand around each of them. Predicates are terms like
any other, so that they can be operands. An `Algebra` says what columns, bound values and operators
stand for, and `Expr.meaning` says what a term stands for then.
-/

namespace BoundSql

/-- What columns, bound values and operators stand for, truth values being values. -/
structure Algebra (α : Type) where
  column (tableAlias name : String) : α
  literal (value : Value) : α
  arith (op : ArithOp) (left right : α) : α
  compare (op : CompareOp) (left right : α) : α
  connective (c : Connective) (left right : α) : α
  not (x : α) : α
  concat (left right : α) : α
  isNull (x : α) : α
  isNotNull (x : α) : α
  /-- What stands for a node that is no part of a term. -/
  other (e : Expr) : α

variable {α : Type}

/-- The number that one is compared to where a connective has no parts. -/
def Algebra.bit (A : Algebra α) : Connective → α
  | .and => A.literal (.integer 1)
  | .or => A.literal (.integer 0)

/-- What a connective without parts stands for. -/
def Algebra.neutral (A : Algebra α) (c : Connective) : α :=
  A.compare .eq (A.literal (.integer 1)) (A.bit c)

/-- Parts under a connective. A single part stands for itself. -/
def Algebra.row (A : Algebra α) (c : Connective) : List α → α
  | [] => A.neutral c
  | [x] => x
  | x :: y :: rest => A.connective c x (A.row c (y :: rest))

namespace Expr

/-- The terms: columns, literals, and arithmetic, comparisons and connectives over terms, with
references and declared types around them. -/
inductive IsTerm : Expr → Prop where
  | column (tableAlias name type) : IsTerm (.column tableAlias name type)
  | literal (value type) : IsTerm (.literal value type)
  | arith {left right} (op type) : IsTerm left → IsTerm right → IsTerm (.arith left op right type)
  | compare {left right} (op) : IsTerm left → IsTerm right → IsTerm (.compare left op right)
  | logic {parts} (c negated) : (∀ p ∈ parts, IsTerm p) → IsTerm (.logic c parts negated)
  | ref {source} (name) : IsTerm source → IsTerm (.ref name source)
  | typed {source} (type) : IsTerm source → IsTerm (.typed source type)

/-- What a term stands for. -/
def meaning (A : Algebra α) : Expr → α :=
  fold fun e sources =>
    match e, sources with
    | .column tableAlias name _, _ => A.column tableAlias name
    | .literal value _, _ => A.literal value
    | .arith _ op _ _, [x, y] => A.arith op x y
    | .compare _ op _, [x, y] => A.compare op x y
    | .logic c _ negated, xs => if negated then A.not (A.row c xs) else A.row c xs
    | .ref .., [x] | .typed .., [x] => x
    | e, _ => A.other e

variable (A : Algebra α)

/-- Arithmetic means its operation on what its operands mean. -/
lemma meaning_arith (left right : Expr) (op : ArithOp) (type : Option SqlType) :
    (arith left op right type).meaning A = A.arith op (left.meaning A) (right.meaning A) :=
  fold_eq _ _

/-- A comparison means its operation on what its operands mean. -/
lemma meaning_compare (left right : Expr) (op : CompareOp) :
    (compare left op right).meaning A = A.compare op (left.meaning A) (right.meaning A) :=
  fold_eq _ _

/-- A connective means its operation on what its parts mean, negated where it is negated. -/
lemma meaning_logic (c : Connective) (parts : List Expr) (negated : Bool) :
    (logic c parts negated).meaning A =
      if negated then A.not (A.row c (parts.map (meaning A))) else A.row c (parts.map (meaning A)) :=
  fold_eq _ _

/-- A reference means what it refers to. -/
lemma meaning_ref (name : String) (source : Expr) :
    (ref name source).meaning A = source.meaning A :=
  fold_eq _ _

/-- A declared type changes no meaning. -/
lemma meaning_typed (source : Expr) (type : SqlType) :
    (typed source type).meaning A = source.meaning A :=
  fold_eq _ _

end Expr

end BoundSql
