import BoundSql.Proofs.Sql.Precedence
import BoundSql.Proofs.Sql.Readability

/-!
# How rendered terms are read

What reading the text of a term comes to is computed along the term: `Expr.course` says which operators
wait after the term, and for which operand, given those that waited before it. The text of a term is
read in this way whatever the levels of the operators are, whatever waits before it, and whatever stands
behind it (`says_term`). So how much of a text an operator applies to is a question about courses.
-/

namespace BoundSql

/-- Bound values stand for themselves. -/
def Interpretation.verbatim : Interpretation Value where
  column _ _ := .null
  literal v := v
  arith _ x _ := x
  compare _ _ _ := .unknown

/-- What reading makes of the operators that wait: those that wait afterwards, and the operand that was
read last. -/
abbrev Course (α : Type) := List (Pending α) → List (Pending α) × α

variable {α : Type}

namespace Course

variable (P : Precedence) (A : Algebra α)

/-- What is read where nothing waits before and nothing follows. -/
def value (t : Course α) : α :=
  A.conclude (t [])

/-- An operand that no operator reaches into. -/
def closed (x : α) : Course α :=
  fun pending => (pending, x)

/-- A negation, which waits for all that follows it. -/
def negated (x : α) : Course α :=
  fun pending => (.not :: pending, x)

/-- An operator between two courses. It makes come to its operands what binds as tight before it. -/
def between (op : BinaryOp) (t u : Course α) : Course α :=
  fun pending => u (P.shift A op (t pending))

/-- An operand of arithmetic, where arithmetic stands in parentheses. -/
def operand (e : Expr) (t : Course α) : Course α :=
  if e.isArithmetic then closed (t.value A) else t

/-- A comparison of numbers, where a connective has no parts. -/
def neutral (c : Connective) : Course α :=
  between P A (.compare .eq) (closed (A.literal (.integer 1))) (closed (A.bit c))

/-- Terms under a connective, in parentheses if there are two or more of them. -/
def logic (c : Connective) (isNegated : Bool) (ts : List (Course α)) : Course α :=
  if isNegated then negated (A.row c (ts.map (value A)))
  else
    match ts with
    | [] => neutral P A c
    | [t] => t
    | ts => closed (A.row c (ts.map (value A)))

end Course

/-- How a rendered term is read. -/
def Expr.course (P : Precedence) (A : Algebra α) (d : Dialect) : Expr → Course α :=
  fold fun e sources =>
    match e, sources with
    | .column tableAlias name _, _ => .closed (A.column tableAlias name)
    | .literal value _, _ => .closed (A.literal value)
    | .arith left op right _, [t, u] =>
      if op = .pow ∧ d ≠ .postgres then .closed (A.arith .pow (t.value A) (u.value A))
      else .between P A (.arith op) (.operand A left t) (.operand A right u)
    | .compare _ op _, [t, u] => .between P A (.compare op) t u
    | .logic c _ negated, ts => .logic P A c negated ts
    | .ref .., [t] | .typed .., [t] => t
    | e, _ => .closed (A.other e)

variable {P : Precedence} {A : Algebra α} {d : Dialect} {a b : Fragment} {x y : α}
  {t u : Course α} {c : Connective} {row : Option Connective}

namespace Expr

/-- Arithmetic is a call for a power outside of PostgreSQL, and an operator between its operands
otherwise. -/
lemma course_arith (left right : Expr) (op : ArithOp) (type : Option SqlType) :
    (arith left op right type).course P A d =
      if op = .pow ∧ d ≠ .postgres then
        .closed (A.arith .pow ((left.course P A d).value A) ((right.course P A d).value A))
      else
        .between P A (.arith op) (.operand A left (left.course P A d))
          (.operand A right (right.course P A d)) :=
  fold_eq _ _

/-- A comparison is an operator between its operands. -/
lemma course_compare (left right : Expr) (op : CompareOp) :
    (compare left op right).course P A d =
      .between P A (.compare op) (left.course P A d) (right.course P A d) :=
  fold_eq _ _

/-- A connective is read over the courses of its parts. -/
lemma course_logic (c : Connective) (parts : List Expr) (negated : Bool) :
    (logic c parts negated).course P A d = .logic P A c negated (parts.map (course P A d)) :=
  fold_eq _ _

/-- A reference is read as what it refers to. -/
lemma course_ref (name : String) (source : Expr) :
    (ref name source).course P A d = source.course P A d :=
  fold_eq _ _

/-- A declared type is not read. -/
lemma course_typed (source : Expr) (type : SqlType) :
    (typed source type).course P A d = source.course P A d :=
  fold_eq _ _

end Expr

namespace Fragment

/-- The fragment is read along the course, wherever it stands. -/
def Says (P : Precedence) (A : Algebra α) (d : Dialect) (a : Fragment) (t : Course α) : Prop :=
  ∃ ws, a.Spelled .verbatim d ws ∧ ∀ {pending rest x rest'},
    Reads P A (.operator (t pending)) rest x rest' → Reads P A (.operand pending) (ws ++ rest) x rest'

/-- In parentheses the fragment is read as a row of terms. -/
def SaysRow (P : Precedence) (A : Algebra α) (d : Dialect) (row : Option Connective) (a : Fragment)
    (x : α) : Prop :=
  ∃ ws, a.Spelled .verbatim d ws ∧ ∀ rest,
    Reads P A (.row row) (ws ++ .sign .closing :: rest) x (.sign .closing :: rest)

/-- The text is read as `x`. -/
def Means (P : Precedence) (A : Algebra α) (d : Dialect) (a : Fragment) (x : α) : Prop :=
  ∃ ws, a.Spelled .verbatim d ws ∧ Reads P A (.operand []) ws x []

/-- A text means one thing. -/
lemma Means.unique (h : a.Means P A d x) (h' : a.Means P A d y) : x = y := by
  obtain ⟨ws, spelled, reads⟩ := h
  obtain ⟨us, spelled', reads'⟩ := h'
  obtain rfl := spelled.unique spelled'
  exact (reads.unique reads').1

/-- Signs that are neither operators nor tests for NULL stop an operand. -/
lemma stops_sign {k : Sign} {rest : List (Word Value)} (binary : k.binary? = none)
    (test : k.isNullTest = false) : Stops (.sign k :: rest) := by
  intro k' first
  cases first
  exact ⟨binary, test⟩

/-- The end of the text stops an operand. -/
lemma stops_nil : Stops [] :=
  fun _ => nofun

/-- What is said along a course is read as its value up to where no operator follows. -/
lemma Says.reads (h : a.Says P A d t) :
    ∃ ws, a.Spelled .verbatim d ws ∧ ∀ rest, Stops rest →
      Reads P A (.operand []) (ws ++ rest) (t.value A) rest := by
  obtain ⟨ws, spelled, reads⟩ := h
  exact ⟨ws, spelled, fun rest stops => reads (.stop stops)⟩

/-- What is said along a course means its value. -/
lemma Says.means (h : a.Says P A d t) : a.Means P A d (t.value A) := by
  obtain ⟨ws, spelled, reads⟩ := h.reads
  have all := reads [] stops_nil
  rw [List.append_nil] at all
  exact ⟨ws, spelled, all⟩

/-- A text that is read as a primary is said along a closed course. -/
lemma says_closed {w : List (Word Value)} (spelled : a.Spelled .verbatim d w)
    (reads : ∀ rest, Reads P A .primary (w ++ rest) x rest) : a.Says P A d (.closed x) :=
  ⟨w, spelled, fun later => .operand (reads _) later⟩

/-- An operator between two texts is read along the course of the operator. -/
lemma Says.between (k : Sign) {op : BinaryOp} (isBinary : k.binary? = some op)
    (h : a.Says P A d t) (h' : b.Says P A d u) :
    (join k.text [a, b]).Says P A d (.between P A op t u) := by
  obtain ⟨ws, spelled, reads⟩ := h
  obtain ⟨us, spelled', reads'⟩ := h'
  refine ⟨_, spelled.pair spelled' k, fun later => ?_⟩
  rw [List.append_assoc]
  exact reads (.binary isBinary (reads' later))

/-- The last part of a row is a row. -/
lemma Says.last (h : a.Says P A d t) (row : Option Connective) :
    a.SaysRow P A d row (t.value A) := by
  obtain ⟨ws, spelled, reads⟩ := h.reads
  exact ⟨ws, spelled, fun rest => .lastPart (reads _ (stops_sign rfl rfl)) nofun⟩

/-- A part, a connective and a row of parts under this connective are a row. -/
lemma Says.more (h : a.Says P A d t) (h' : b.SaysRow P A d (some c) y) (same : ∀ c' ∈ row, c' = c) :
    (join (Sign.connective c).text [a, b]).SaysRow P A d row (A.connective c (t.value A) y) := by
  obtain ⟨ws, spelled, reads⟩ := h.reads
  obtain ⟨us, spelled', reads'⟩ := h'
  refine ⟨_, spelled.pair spelled' (.connective c), fun rest => ?_⟩
  rw [List.append_assoc]
  exact .part (reads _ (stops_sign rfl rfl)) same (reads' rest)

/-- A row in parentheses is one closed operand. -/
lemma SaysRow.parenthesized (h : a.SaysRow P A d none x) :
    a.parenthesized.Says P A d (.closed x) := by
  obtain ⟨ws, spelled, reads⟩ := h
  refine says_closed spelled.parenthesized fun rest => ?_
  rw [List.cons_append, List.append_assoc]
  exact .parenthesized (reads rest)

/-- A row in parentheses may be negated, and the negation waits. -/
lemma SaysRow.not (h : a.SaysRow P A d none x) :
    (a.parenthesized.mapSql ("NOT " ++ ·)).Says P A d (.negated x) := by
  obtain ⟨ws, spelled, reads⟩ := h.parenthesized
  exact ⟨_, spelled.prepend .not, fun later => .not (reads later)⟩

/-- A power written as a call is one closed operand. -/
lemma Says.power (h : a.Says P A d t) (h' : b.Says P A d u) :
    (power a b).Says P A d (.closed (A.arith .pow (t.value A) (u.value A))) := by
  obtain ⟨ws, spelled, reads⟩ := h.reads
  obtain ⟨us, spelled', reads'⟩ := h'.reads
  refine says_closed ((spelled.pair spelled' .comma).parenthesized.prepend .power) fun rest => ?_
  rw [List.cons_append, List.cons_append, List.append_assoc, List.append_assoc]
  exact .power (reads _ (stops_sign rfl rfl)) (reads' _ (stops_sign rfl rfl))

/-- Parts with one connective between them are a row. -/
lemma saysRow_join {parts : List Fragment} {ts : List (Course α)} (some_part : parts ≠ [])
    (h : List.Forall₂ (Says P A d) parts ts) (same : ∀ c' ∈ row, c' = c) :
    (join (Sign.connective c).text parts).SaysRow P A d row (A.row c (ts.map (Course.value A))) := by
  induction h generalizing row with
  | nil => contradiction
  | @cons a t parts ts first later ih =>
    cases later with
    | nil =>
      rw [join_singleton]
      exact first.last row
    | @cons b u parts ts =>
      have two : join (Sign.connective c).text (a :: b :: parts) =
          join (Sign.connective c).text [a, join (Sign.connective c).text (b :: parts)] := by
        simp [join]
      rw [two]
      refine first.more (ih (List.cons_ne_nil b parts) ?_) same
      rintro _ ⟨⟩
      rfl

/-- The text of a connective is read along its course. -/
lemma says_logic {negated : Bool} {parts : List Fragment} {ts : List (Course α)}
    (h : List.Forall₂ (Says P A d) parts ts) :
    (logic c negated parts).Says P A d (.logic P A c negated ts) := by
  cases h with
  | nil =>
    have neutral : (raw (Sign.neutral c).text).Says P A d (.neutral P A c) :=
      ⟨_, spelled_sign _ d _, .neutral⟩
    cases negated with
    | true =>
      have wrapped := (neutral.last none).not
      cases c <;> exact wrapped
    | false => cases c <;> exact neutral
  | @cons a t parts ts first later =>
    have row : (join (Sign.connective c).text (a :: parts)).SaysRow P A d none _ :=
      saysRow_join (List.cons_ne_nil a parts) (.cons first later) nofun
    cases negated with
    | true => exact row.not
    | false =>
      cases later with
      | nil =>
        show (join (Sign.connective c).text [a]).Says P A d t
        rw [join_singleton]
        exact first
      | cons => exact row.parenthesized

/-- The text of an operand is read along its course, with its parentheses or without. -/
lemma Says.operand (h : a.Says P A d t) (e : Expr) :
    (e.operand a).Says P A d (.operand A e t) := by
  rw [Expr.operand, Course.operand]
  split
  · exact (h.last none).parenthesized
  · exact h

end Fragment

open Fragment

/-- The text of a term is read along the course of the term. -/
theorem says_term {e : Expr} (h : e.IsTerm) (P : Precedence) (A : Algebra α) (d : Dialect) :
    (e.fold (Expr.assemble d)).Says P A d (e.course P A d) := by
  induction h with
  | column tableAlias name =>
    exact says_closed (spelled_column _ d tableAlias name) fun rest => .column tableAlias name rest
  | literal value =>
    exact says_closed (spelled_bind _ d value) fun rest => .marker value rest
  | arith op type _ _ ihl ihr =>
    rw [Expr.fold_eq, Expr.course_arith]
    show Says P A d (if _ then _ else _) _
    split
    · exact ihl.power ihr
    · exact (ihl.operand _).between (.arith op) rfl (ihr.operand _)
  | compare op _ _ ihl ihr =>
    rw [Expr.fold_eq, Expr.course_compare]
    exact ihl.between (.compare op) rfl ihr
  | logic c negated _ ih =>
    rw [Expr.fold_eq, Expr.course_logic]
    apply says_logic
    rw [List.forall₂_map_left_iff, List.forall₂_map_right_iff]
    exact List.forall₂_same.2 ih
  | ref _ _ ih | typed _ _ ih =>
    rw [Expr.fold_eq]
    exact ih

/-- The texts of several terms are read along their courses. -/
lemma says_terms {terms : List Expr} (h : ∀ p ∈ terms, p.IsTerm) (P : Precedence) (A : Algebra α)
    (d : Dialect) : List.Forall₂ (Says P A d) (terms.map (Expr.fold (Expr.assemble d)))
      (terms.map (Expr.course P A d)) := by
  rw [List.forall₂_map_left_iff, List.forall₂_map_right_iff]
  exact List.forall₂_same.2 fun p mem => says_term (h p mem) P A d

/-- A negation stands in the text outside of parentheses. -/
def Expr.negatesBare (d : Dialect) : Expr → Bool :=
  fold fun e sources =>
    match e, sources with
    | .arith left op right _, [b, c] =>
      !(op = .pow ∧ d ≠ .postgres) && (!left.isArithmetic && b || !right.isArithmetic && c)
    | .compare .., [b, c] => b || c
    | .logic _ _ true, _ => true
    | .logic _ _ false, [b] => b
    | .ref .., [b] | .typed .., [b] => b
    | _, _ => false

namespace Expr

/-- A negation is bare in arithmetic when it is in an operand that stands without parentheses. -/
lemma negatesBare_arith (left right : Expr) (op : ArithOp) (type : Option SqlType) :
    (arith left op right type).negatesBare d =
      (!(op = .pow ∧ d ≠ .postgres) && (!left.isArithmetic && left.negatesBare d ||
        !right.isArithmetic && right.negatesBare d)) :=
  fold_eq _ _

/-- A negation is bare in a comparison when it is in one of the operands. -/
lemma negatesBare_compare (left right : Expr) (op : CompareOp) :
    (compare left op right).negatesBare d = (left.negatesBare d || right.negatesBare d) :=
  fold_eq _ _

/-- A connective has a bare negation when it is negated, or when its only part has one. -/
lemma negatesBare_logic (c : Connective) (parts : List Expr) (negated : Bool) :
    (logic c parts negated).negatesBare d =
      match negated, parts with
      | true, _ => true
      | false, [p] => p.negatesBare d
      | false, _ => false := by
  rw [negatesBare, fold_eq]
  cases negated with
  | true => rfl
  | false =>
    match parts with
    | [] | [_] | _ :: _ :: _ => rfl

end Expr

namespace Course

/-- What waits has the one property before and the other one after. -/
def Leads (Q R : List (Pending α) → Prop) (t : Course α) : Prop :=
  ∀ pending, Q pending → R (t pending).1

variable {Q Q' R R' : List (Pending α) → Prop}

/-- A closed operand leaves what waits as it was. -/
lemma leads_closed (x : α) : (closed x).Leads Q Q :=
  fun _ holds => holds

/-- An operand keeps of what waits all that its course keeps, and everything when it stands in
parentheses. -/
lemma Leads.operand {e : Expr} (h : e.isArithmetic = false → t.Leads Q Q) :
    (operand A e t).Leads Q Q := by
  rw [Course.operand]
  split
  · exact leads_closed _
  · exact h (Bool.eq_false_iff.2 ‹_›)

/-- An operator leads from where its left operand comes to, through itself, to where its
right one ends. -/
lemma Leads.between {op : BinaryOp} (left : t.Leads Q Q')
    (shift : ∀ s, Q' s.1 → R' (P.shift A op s)) (right : u.Leads R' R) :
    (between P A op t u).Leads Q R :=
  fun pending holds => right _ (shift _ (left pending holds))

end Course

open Course in
/-- What operators keep true of all that waits stays true over a term, if it is kept by a negation as
well or the term has none outside of parentheses. -/
theorem leads_course {Q : List (Pending α) → Prop} {e : Expr} (h : e.IsTerm)
    (shift : ∀ op s, Q s.1 → Q (P.shift A op s))
    (negation : e.negatesBare d = true → ∀ pending, Q pending → Q (.not :: pending)) :
    (e.course P A d).Leads Q Q := by
  induction h with
  | column | literal => exact leads_closed _
  | arith op type _ _ ihl ihr =>
    rw [Expr.negatesBare_arith] at negation
    rw [Expr.course_arith]
    split
    · exact leads_closed _
    · rename_i infixed
      refine (Leads.operand fun plain => ihl fun bare => negation ?_).between (shift _)
        (Leads.operand fun plain => ihr fun bare => negation ?_)
      · simp [infixed, plain, bare]
      · simp [infixed, plain, bare]
  | compare op _ _ ihl ihr =>
    rw [Expr.negatesBare_compare] at negation
    rw [Expr.course_compare]
    refine (ihl fun bare => negation ?_).between (shift _) (ihr fun bare => negation ?_)
    · rw [bare, Bool.true_or]
    · rw [bare, Bool.or_true]
  | @logic parts c negated _ ih =>
    rw [Expr.negatesBare_logic] at negation
    rw [Expr.course_logic]
    cases negated with
    | true => exact fun pending holds => negation rfl pending holds
    | false =>
      match parts with
      | [] => exact (leads_closed _).between (shift _) (leads_closed _)
      | [p] => exact ih p List.mem_cons_self negation
      | _ :: _ :: _ => exact leads_closed _
  | ref _ _ ih | typed _ _ ih => exact ih negation

/-- A term without a bare negation keeps of what waits all that operators keep. -/
lemma leads_course_of_plain {Q : List (Pending α) → Prop} {e : Expr} (h : e.IsTerm)
    (plain : e.negatesBare d = false) (shift : ∀ op s, Q s.1 → Q (P.shift A op s)) :
    (e.course P A d).Leads Q Q :=
  leads_course h shift fun bare => absurd (plain.symm.trans bare) Bool.false_ne_true

end BoundSql
