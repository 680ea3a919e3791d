import BoundSql.Proofs.Sql.Course

/-!
# What parentheses keep together

Only arithmetic in arithmetic is put into parentheses. Every other operand is written as it is, so a
comparison loses its operands to the operators next to it: a comparison of a comparison has one text
however it is grouped (`render_compare_assoc`), and that one text has two meanings
(`grouping_lost`). Where each operand binds tight enough to be told apart without parentheses
(`Expr.KeepsOperands`), the text is read as what the term denotes, so that terms with one text have one
meaning (`grouping_faithful`). The induction is on the term: reading it leaves what waited before it as
it was, and its meaning as the operand that was read last (`settles_course`).
-/

namespace BoundSql

namespace Expr

/-- All operators of the text that stand outside of parentheses bind at the level or tighter. -/
def binds (P : Precedence) (d : Dialect) (level : Nat) : Expr → Bool :=
  fold fun e sources =>
    match e, sources with
    | .arith _ op _ _, _ => (op = .pow ∧ d ≠ .postgres) || level ≤ P.level (.arith op)
    | .compare _ op _, _ => level ≤ P.level (.compare op)
    | .logic _ _ true, _ => level ≤ P.not
    | .logic _ _ false, [] => level ≤ P.level (.compare .eq)
    | .logic _ _ false, [b] => b
    | .ref .., [b] | .typed .., [b] => b
    | _, _ => true

/-- Without more parentheses than are written, the operands of the node do not come apart: the left one
binds as tight as the operator between them, and the right one tighter. -/
def KeepsOperands (P : Precedence) (d : Dialect) : Expr → Prop
  | .arith left op right _ =>
    (op = .pow ∧ d ≠ .postgres) ∨
      (left.isArithmetic ∨ left.binds P d (P.level (.arith op))) ∧
        (right.isArithmetic ∨ right.binds P d (P.level (.arith op) + 1))
  | .compare left op right =>
    left.binds P d (P.level (.compare op)) ∧ right.binds P d (P.level (.compare op) + 1)
  | _ => True

instance (P : Precedence) (d : Dialect) : DecidablePred (KeepsOperands P d)
  | .arith .. => inferInstanceAs (Decidable (_ ∨ _))
  | .compare .. => inferInstanceAs (Decidable (_ ∧ _))
  | .field _ | .column .. | .ref .. | .literal .. | .star | .call .. | .aggregate .. | .sorted ..
  | .logic .. | .typed .. => .isTrue trivial

end Expr

variable {α : Type} {P : Precedence} {A : Algebra α} {d : Dialect} {e e' : Expr} {a : Fragment}
  {level n : Nat} {pending : List (Pending α)} {x y : α} {t u : Course α}

namespace Expr

/-- A connective binds as its negation or its only part does, and as tight as can be in parentheses. -/
lemma binds_logic (c : Connective) (parts : List Expr) (negated : Bool) :
    (logic c parts negated).binds P d level =
      match negated, parts with
      | true, _ => decide (level ≤ P.not)
      | false, [] => decide (level ≤ P.level (.compare .eq))
      | false, [p] => p.binds P d level
      | false, _ => true := by
  rw [binds, fold_eq]
  cases negated with
  | true => rfl
  | false =>
    match parts with
    | [] | [_] | _ :: _ :: _ => rfl

/-- No operator binds looser than the lowest level. -/
lemma IsTerm.binds_zero (h : e.IsTerm) : e.binds P d 0 = true := by
  induction h with
  | column | literal => rfl
  | arith op => exact Bool.or_eq_true_iff.2 (.inr (decide_eq_true (Nat.zero_le _)))
  | compare op => exact decide_eq_true (Nat.zero_le (P.level (.compare op)))
  | @logic parts c negated _ ih =>
    rw [binds_logic]
    split
    · exact decide_eq_true (Nat.zero_le _)
    · exact decide_eq_true (Nat.zero_le _)
    · exact ih _ List.mem_cons_self
    · rfl
  | ref _ _ ih | typed _ _ ih =>
    rw [binds, fold_eq]
    exact ih

end Expr

namespace Course

/-- Reading on from what binds looser leaves that as it was, and leaves one operand as soon as all that
binds at the level has come to its operands. -/
def Settles (P : Precedence) (A : Algebra α) (level : Nat) (t : Course α) (x : α) : Prop :=
  ∀ pending, (∀ p ∈ pending, P.of p < level) →
    P.settle A level (t pending).1 (t pending).2 = (pending, x)

/-- A closed operand settles at every level. -/
lemma settles_closed (level : Nat) (x : α) : (closed x).Settles P A level x :=
  fun _ looser => Precedence.settle_of_lt looser

/-- A negation settles at every level that it binds at. -/
lemma settles_negated (le : level ≤ P.not) (x : α) :
    (negated x).Settles P A level (A.not x) := by
  intro pending looser
  show P.settle A level (.not :: pending) x = _
  rw [Precedence.settle_cons le]
  exact Precedence.settle_of_lt looser

/-- What settles at a level settles where looser operators apply. -/
lemma Settles.mono (h : t.Settles P A level x) (le : n ≤ level) : t.Settles P A n x := by
  intro pending looser
  rw [← Precedence.settle_settle le, h pending fun p mem => (looser p mem).trans_le le]
  exact Precedence.settle_of_lt looser

/-- What settles at the loosest level comes to its value. -/
lemma Settles.value (h : t.Settles P A 0 x) : t.value A = x := by
  have all := h [] nofun
  rw [Precedence.settle_of_le fun _ _ => Nat.zero_le _] at all
  exact congrArg Prod.snd all

/-- An operand settles where its course does, and everywhere when it stands in parentheses. -/
lemma Settles.operand (value : t.value A = x)
    (h : e.isArithmetic = true ∨ t.Settles P A level x) : (operand A e t).Settles P A level x := by
  rw [Course.operand]
  split
  · rw [value]
    exact settles_closed level x
  · exact h.resolve_left ‹_›

/-- The left operand has settled when the operator is read, and the right one before what binds as tight
as the operator is applied. -/
lemma Settles.between (op : BinaryOp) (le : level ≤ P.level op)
    (left : t.Settles P A (P.level op) x) (right : u.Settles P A (P.level op + 1) y) :
    (between P A op t u).Settles P A level (A.binary op x y) := by
  intro pending looser
  have behind : P.shift A op (t pending) = .binary x op :: pending := by
    rw [Precedence.shift, left pending fun p mem => (looser p mem).trans_le le]
  -- nothing that waits reaches into the right operand, the operator itself included
  have settled := right (.binary x op :: pending) <| by
    intro p mem
    rcases List.mem_cons.1 mem with rfl | mem
    · exact Nat.lt_succ_self _
    · exact ((looser p mem).trans_le le).trans (Nat.lt_succ_self _)
  show P.settle A level (u (P.shift A op (t pending))).1 (u (P.shift A op (t pending))).2 = _
  rw [behind, ← Precedence.settle_settle (le.trans (Nat.le_succ _)), settled,
    Precedence.settle_cons le]
  exact Precedence.settle_of_lt looser

end Course

open Course in
/-- A term that keeps its operands settles to what it denotes. -/
theorem settles_course (h : e.IsTerm) (kept : e.Throughout (Expr.KeepsOperands P d))
    (binds : e.binds P d level = true) : (e.course P A d).Settles P A level (e.meaning A) := by
  -- parentheses and calls start over at level zero, which every term satisfies
  induction h generalizing level with
  | column | literal => exact settles_closed level _
  | @arith left right op type termL termR ihl ihr =>
    obtain ⟨node, sources⟩ := Expr.throughout_iff.1 kept
    obtain ⟨keptL, sources⟩ := List.forall_mem_cons.1 sources
    have keptR := List.forall_mem_singleton.1 sources
    have valueL := (ihl keptL termL.binds_zero).value
    have valueR := (ihr keptR termR.binds_zero).value
    rw [Expr.course_arith, Expr.meaning_arith]
    split
    · rename_i call
      rw [valueL, valueR, call.1]
      exact settles_closed level _
    · rename_i infixed
      obtain ⟨bindsL, bindsR⟩ := node.resolve_left infixed
      have le : level ≤ P.level (.arith op) := by
        rcases Bool.or_eq_true_iff.1 binds with call | le
        · exact absurd (of_decide_eq_true call) infixed
        · exact of_decide_eq_true le
      exact (Settles.operand valueL (bindsL.imp_right (ihl keptL))).between (.arith op) le
        (Settles.operand valueR (bindsR.imp_right (ihr keptR)))
  | @compare left right op _ _ ihl ihr =>
    obtain ⟨⟨bindsL, bindsR⟩, sources⟩ := Expr.throughout_iff.1 kept
    obtain ⟨keptL, sources⟩ := List.forall_mem_cons.1 sources
    have keptR := List.forall_mem_singleton.1 sources
    rw [Expr.course_compare, Expr.meaning_compare]
    exact (ihl keptL bindsL).between (.compare op) (of_decide_eq_true binds) (ihr keptR bindsR)
  | @logic parts c negated terms ih =>
    have keptParts := (Expr.throughout_iff.1 kept).2
    have values : (parts.map (Expr.course P A d)).map (value A) = parts.map (Expr.meaning A) := by
      rw [List.map_map]
      exact List.map_congr_left fun p mem => (ih p mem (keptParts p mem) (terms p mem).binds_zero).value
    rw [Expr.course_logic, Expr.meaning_logic, ← values]
    rw [Expr.binds_logic] at binds
    cases negated with
    | true => exact settles_negated (of_decide_eq_true binds) _
    | false =>
      match parts with
      | [] =>
        exact (settles_closed _ _).between (.compare .eq) (of_decide_eq_true binds) (settles_closed _ _)
      | [p] =>
        rw [values]
        exact ih p List.mem_cons_self (keptParts p List.mem_cons_self) binds
      | _ :: _ :: _ => exact settles_closed level _
  | @ref source name _ ih =>
    rw [Expr.course_ref, Expr.meaning_ref]
    exact ih (kept.within (.of_mem List.mem_cons_self)) binds
  | @typed source type _ ih =>
    rw [Expr.course_typed, Expr.meaning_typed]
    exact ih (kept.within (.of_mem List.mem_cons_self)) binds

/-- A term whose nodes keep their operands is read as what it means. -/
lemma value_course (h : e.IsTerm) (kept : e.Throughout (Expr.KeepsOperands P d)) :
    (e.course P A d).value A = e.meaning A :=
  (settles_course h kept h.binds_zero).value

/-- What terms that keep their operands denote is read from their text, so that those with one text and
the same parameters denote the same, whatever columns, bound values and operators stand for. -/
theorem grouping_faithful (P : Precedence) (term : e.IsTerm) (term' : e'.IsTerm)
    (kept : e.Throughout (Expr.KeepsOperands P d)) (kept' : e'.Throughout (Expr.KeepsOperands P d))
    (run : (Renderer.standard d).render e = .ok a) (run' : (Renderer.standard d).render e' = .ok a)
    (A : Algebra α) : a.Means P A d (e.meaning A) ∧ e.meaning A = e'.meaning A := by
  obtain ⟨-, eq⟩ := Renderer.render_eq_ok_iff.1 run
  obtain ⟨-, eq'⟩ := Renderer.render_eq_ok_iff.1 run'
  have means := (says_term term P A d).means
  have means' := (says_term term' P A d).means
  rw [← eq, value_course term kept] at means
  rw [← eq', value_course term' kept'] at means'
  exact ⟨means, means.unique means'⟩

namespace Fragment

/-- Two operators between three fragments are written alike in either grouping. -/
lemma between_assoc (a b c : Fragment) (op op' : String) :
    (a.between op b).between op' c = a.between op (b.between op' c) := by
  simp [between, join, String.append_assoc]

end Fragment

/-- A comparison of a comparison is written in the same way however it is grouped. -/
theorem render_compare_assoc (d : Dialect) (l m n : Expr) (op op' : CompareOp) :
    (Renderer.standard d).render (.compare (.compare l op m) op' n) =
      (Renderer.standard d).render (.compare l op (.compare m op' n)) := by
  have step (l m : Expr) (op : CompareOp) : (Renderer.standard d).render (.compare l op m) = (do
      return (← (Renderer.standard d).render l).between op.symbol
        (← (Renderer.standard d).render m)) :=
    Renderer.render_of_get?_none (by cases d <;> rfl)
  simp only [step, bind_assoc, pure_bind, Fragment.between_assoc]

/-- Every column is two but for the column of ones. Comparisons are one when they hold and zero else, of
connectives the last part counts, and sums and products are as usual. -/
def counting : Algebra Nat where
  column _ name := if name = "one" then 1 else 2
  literal
    | .integer n => n.toInt.toNat
    | _ => 0
  arith
    | .add, x, y => x + y
    | .mul, x, y => x * y
    | _, x, _ => x
  compare
    | .eq, x, y => if x = y then 1 else 0
    | .lt, x, y => if x < y then 1 else 0
    | .gt, x, y => if y < x then 1 else 0
    | _, _, _ => 0
  connective _ _ y := y
  not x := 1 - x
  concat x _ := x
  isNull _ := 0
  isNotNull _ := 1
  other _ := 0

/-- A comparison of a disjunction, itself compared to twice of a sum. The sum and its double are written
as the function makes them, and the negation has one part under the connective. -/
def comparedToDouble (written : Expr → Expr) (c : Connective) : Expr :=
  let pay := Expr.column "T2" "pay" (some .integer)
  let one := Expr.literal (.integer 1) none
  let old := Expr.column "T2" "old" none
  let double := Expr.arith (written (.arith pay .add one none)) .mul (.literal (.integer 2) none) none
  .compare (.compare (.logic .or [.logic c [.compare pay .gt one] true, old] false) .eq old) .lt
    (written double)

/-- Names, types and the connective of a single part are not seen in the text, and do not matter. -/
theorem grouping_faithful_comparedToDouble :
    let text := Fragment.mk ("(NOT (`T2`.`pay` > ?) OR `T2`.`old`) = `T2`.`old` < " ++
      "(`T2`.`pay` + ?) * ?") [.integer 1, .integer 1, .integer 2]
    let e := comparedToDouble (.ref "sum") .and
    let e' := comparedToDouble (.typed · .decimal) .or
    (Renderer.standard .mysql).render e = .ok text ∧ (Renderer.standard .mysql).render e' = .ok text ∧
      text.Means .mysql counting .mysql 1 ∧ e.meaning counting = e'.meaning counting := by
  have pay := Expr.IsTerm.column "T2" "pay" (some .integer)
  have one := Expr.IsTerm.literal (.integer 1) none
  have old := Expr.IsTerm.column "T2" "old" none
  have sum := pay.arith .add none one
  have two := Expr.IsTerm.literal (.integer 2) none
  have disjunction (c : Connective) := Expr.IsTerm.logic .or false <| List.forall_mem_cons.2
    ⟨.logic c true (List.forall_mem_singleton.2 (pay.compare .gt one)), List.forall_mem_singleton.2 old⟩
  have term : (comparedToDouble (.ref "sum") .and).IsTerm :=
    ((disjunction .and).compare .eq old).compare .lt (((sum.ref "sum").arith .mul none two).ref "sum")
  have term' : (comparedToDouble (.typed · .decimal) .or).IsTerm :=
    ((disjunction .or).compare .eq old).compare .lt
      (((sum.typed .decimal).arith .mul none two).typed .decimal)
  obtain ⟨means, same⟩ := grouping_faithful (d := .mysql) .mysql term term' (by decide) (by decide)
    rfl rfl counting
  exact ⟨rfl, rfl, means, same⟩

/-- Terms with one text and the same parameters that are grouped in two ways denote two values. -/
theorem grouping_lost :
    ¬ ∀ (d : Dialect) (e e' : Expr) (a : Fragment), e.IsTerm → e'.IsTerm →
      (Renderer.standard d).render e = .ok a → (Renderer.standard d).render e' = .ok a →
      ∀ (α : Type) (A : Algebra α), e.meaning A = e'.meaning A := by
  intro claim
  let column (name : String) : Expr := .column "T2" name none
  have isTerm (name : String) : (column name).IsTerm := .column _ _ _
  have same := render_compare_assoc .postgres (column "a") (column "b") (column "one") .eq .eq
  have equal := claim .postgres _ _ _ (((isTerm "a").compare .eq (isTerm "b")).compare .eq (isTerm "one"))
    ((isTerm "a").compare .eq ((isTerm "b").compare .eq (isTerm "one"))) rfl same.symm Nat counting
  -- two is two, and that is one; but two is not what two and one compare to
  exact absurd equal (by decide)

end BoundSql
