import BoundSql.Clause
import Mathlib.Data.List.Basic

/-!
# Truth of predicates

Predicates are true, false or unknown. A conjunction or disjunction has the truth of its parts, and
any other predicate the truth that it is given. Negating a predicate negates its truth
(`truth_negate`), and a predicate is as true as all of its conjuncts together (`all_conjuncts`).
-/

namespace BoundSql

/-- A truth value of SQL. -/
inductive Truth where
  | no
  | unknown
  | yes
deriving DecidableEq, Repr

namespace Truth

/-- No wins over unknown, and unknown over yes. -/
def and : Truth → Truth → Truth
  | .no, _ | _, .no => .no
  | .yes, .yes => .yes
  | _, _ => .unknown

/-- Yes wins over unknown, and unknown over no. -/
def or : Truth → Truth → Truth
  | .yes, _ | _, .yes => .yes
  | .no, .no => .no
  | _, _ => .unknown

/-- What is unknown stays so. -/
def not : Truth → Truth
  | .no => .yes
  | .unknown => .unknown
  | .yes => .no

/-- The conjunction of a list. -/
def all (ts : List Truth) : Truth :=
  ts.foldr and .yes

/-- The disjunction of a list. -/
def any (ts : List Truth) : Truth :=
  ts.foldr or .no

/-- Two negations cancel, an unknown truth included. -/
@[simp] lemma not_not (t : Truth) : t.not.not = t := by cases t <;> rfl

@[simp] lemma and_yes (t : Truth) : t.and .yes = t := by cases t <;> rfl

@[simp] lemma yes_and (t : Truth) : yes.and t = t := by cases t <;> rfl

/-- The order of two conjuncts does not matter. -/
lemma and_comm (t u : Truth) : t.and u = u.and t := by cases t <;> cases u <;> rfl

/-- The grouping of conjuncts does not matter. -/
lemma and_assoc (t u w : Truth) : (t.and u).and w = t.and (u.and w) := by
  cases t <;> cases u <;> cases w <;> rfl

@[simp] lemma all_nil : all [] = yes := rfl

@[simp] lemma all_cons (t : Truth) (ts : List Truth) : all (t :: ts) = t.and (all ts) := rfl

/-- Two lists of truths hold together when each of them does. -/
@[simp] lemma all_append (ts us : List Truth) : all (ts ++ us) = (all ts).and (all us) := by
  induction ts with
  | nil => rw [List.nil_append, all_nil, yes_and]
  | cons t ts ih => rw [List.cons_append, all_cons, all_cons, ih, and_assoc]

/-- The order of a conjunction does not matter. -/
lemma all_perm {ts us : List Truth} (h : ts.Perm us) : all ts = all us := by
  induction h with
  | nil => rfl
  | cons t _ ih => rw [all_cons, all_cons, ih]
  | swap t u ts => rw [all_cons, all_cons, all_cons, all_cons, ← and_assoc, and_comm u t, and_assoc]
  | trans _ _ ih ih' => rw [ih, ih']

/-- A conjunction of conjunctions. -/
lemma all_flatMap {α : Type} (f : α → List Truth) (l : List α) :
    all (l.flatMap f) = all (l.map fun a => all (f a)) := by
  induction l with
  | nil => rfl
  | cons a l ih => rw [List.flatMap_cons, all_append, ih, List.map_cons, all_cons]

end Truth

/-- The truth of a compound predicate that is not negated. -/
def Connective.truth : Connective → List Truth → Truth
  | .and => .all
  | .or => .any

namespace Expr

/-- The truth of a predicate, given that of the predicates that are not compound. -/
def truth (v : Expr → Truth) : Expr → Truth :=
  fold fun e parts =>
    match e with
    | .logic connective _ negated =>
      if negated then (connective.truth parts).not else connective.truth parts
    | _ => v e

variable (v : Expr → Truth)

/-- A connective is as true as its parts make it, negated where it is negated. -/
lemma truth_logic (connective : Connective) (parts : List Expr) (negated : Bool) :
    (logic connective parts negated).truth v =
      if negated then (connective.truth (parts.map (truth v))).not
      else connective.truth (parts.map (truth v)) := by
  rw [truth, fold_eq]
  rfl

/-- The negation of a predicate is true when the predicate is false, and the other way round. -/
lemma truth_negate (e : Expr) : e.negate.truth v = (e.truth v).not := by
  cases e with
  | logic connective parts negated =>
    rw [negate, truth_logic, truth_logic]
    cases negated with
    | true => exact (Truth.not_not _).symm
    | false => rfl
  | _ => exact congrArg Truth.not (Truth.and_yes _)

/-- A predicate is as true as its conjuncts together. -/
lemma all_conjuncts (e : Expr) : Truth.all (e.conjuncts.map (truth v)) = e.truth v := by
  induction e using Expr.induction with
  | node e ih =>
    unfold conjuncts
    split
    · rename_i parts
      have each : (parts.map fun p => Truth.all (p.conjuncts.map (truth v))) =
          parts.map (truth v) := List.map_congr_left ih
      rw [conjunctsList_eq_flatMap, List.map_flatMap, Truth.all_flatMap, each, truth_logic]
      rfl
    · exact Truth.and_yes _

end Expr

end BoundSql
