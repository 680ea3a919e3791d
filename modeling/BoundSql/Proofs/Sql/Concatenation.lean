import BoundSql.Expr.Functions
import BoundSql.Proofs.Sql.Calls
import BoundSql.Proofs.Sql.Regrouping

/-!
# Concatenation as an operator and as a call

SQLite writes a concatenation as its arguments with an operator between them, which are not put into
parentheses (`fold_concat_sqlite`). That operator binds tighter than all others, so the text means the
concatenation of the arguments exactly when none of them is arithmetic or a comparison
(`concat_apart_iff`), whereas the call that the other dialects write always does.
-/

namespace BoundSql

variable {α : Type}

/-- The values one after the other, from left to right. -/
def Algebra.concatenation (A : Algebra α) : List α → α
  | [] => A.literal (.text "")
  | x :: xs => xs.foldl A.concat x

/-- The text is one of arithmetic or of a comparison, without parentheses around it. A connective
without parts is written as a comparison. -/
def Expr.isInfix (d : Dialect) : Expr → Bool :=
  fold fun e sources =>
    match e, sources with
    | .arith _ op _ _, _ => !(op = .pow ∧ d ≠ .postgres)
    | .compare .., _ => true
    | .logic _ _ false, [] => true
    | .logic _ _ false, [b] => b
    | .ref .., [b] | .typed .., [b] => b
    | _, _ => false

variable {P : Precedence} {A : Algebra α} {d : Dialect} {a b : Fragment} {e : Expr} {x y : α}
  {t u : Course α} {head : CallHead} {args : List Expr} {parts : List Fragment}
  {ts : List (Course α)}

namespace CallHead

/-- A template of nothing but the arguments puts the joiner between them. -/
lemma assemble_expressions (only : head.template = "%(expressions)s") :
    head.assemble d parts = .join head.joiner parts := by
  have pieces : Template.pieces "%(expressions)s" = [.placeholder "expressions"] := by decide
  rw [assemble, only]
  simp [Template.fill, pieces, Template.Piece.fill, get?_context, String.join]

/-- The usual template puts the function before the arguments in parentheses. -/
lemma assemble_function {function : String} (named : head.function = some function)
    (called : head.template = "%(function)s(%(expressions)s)") :
    head.assemble d parts = (Fragment.join head.joiner parts).parenthesized.mapSql (function ++ ·) := by
  have pieces : Template.pieces "%(function)s(%(expressions)s)" =
      [.placeholder "function", .char '(', .placeholder "expressions", .char ')'] := by decide
  have name (args : String) :
      ((Renderer.standard d).context head (some function) args).get? "function" = some function := by
    rw [Renderer.context]
    cases head.type <;> simp [Dict.get?_insert]
  rw [assemble, named, called]
  simp [Template.fill, pieces, Template.Piece.fill, get?_context, name, String.join, String.append_assoc,
    Fragment.parenthesized, Fragment.mapSql]

end CallHead

/-- A concatenation is a call of two or more arguments. -/
lemma Expr.of_concat (built : concat args = .ok e) :
    (∃ p q rest, args = p :: q :: rest) ∧ e = .call (.variadic "Concat" "CONCAT" (some .text)) args := by
  rw [concat, atLeastTwo] at built
  split at built
  · cases built
  · rename_i enough
    cases built
    match args with
    | [] | [_] => simp at enough
    | p :: q :: rest => exact ⟨⟨p, q, rest, rfl⟩, rfl⟩

/-- SQLite writes the arguments of a concatenation as they are, with the operator between them. -/
lemma fold_concat_sqlite (built : Expr.concat args = .ok e) :
    e.fold (Expr.assemble .sqlite) = .join " || " (args.map (Expr.fold (Expr.assemble .sqlite))) := by
  obtain ⟨-, rfl⟩ := Expr.of_concat built
  rw [Expr.fold_eq]
  exact CallHead.assemble_expressions rfl

/-- Outside of SQLite a concatenation is a call. -/
lemma fold_concat (built : Expr.concat args = .ok e) (other : d ≠ .sqlite) :
    e.fold (Expr.assemble d) = (Fragment.join ", "
      (args.map (Expr.fold (Expr.assemble d)))).parenthesized.mapSql ("CONCAT" ++ ·) := by
  obtain ⟨-, rfl⟩ := Expr.of_concat built
  rw [Expr.fold_eq]
  cases d with
  | sqlite => contradiction
  | postgres | mysql => exact CallHead.assemble_function rfl rfl

namespace Fragment

/-- The first two parts of a row may be joined first. -/
lemma join_cons_cons (separator : String) (a b : Fragment) (parts : List Fragment) :
    join separator (a :: b :: parts) = join separator (join separator [a, b] :: parts) := by
  cases parts <;> simp [join, String.append_assoc]

/-- Arguments with bars between them are read along the course of a concatenation from the left. -/
lemma Says.bars (first : a.Says P A d t) (later : List.Forall₂ (Says P A d) parts ts) :
    (join " || " (a :: parts)).Says P A d (ts.foldl (Course.between P A .concat) t) := by
  -- the operator groups from the left, so the first two arguments are one operand for the third
  induction later generalizing a t with
  | nil =>
    rw [join_singleton]
    exact first
  | cons second _ ih =>
    rw [join_cons_cons]
    exact ih (first.between .bars rfl second)

/-- The arguments behind the first one. -/
lemma reads_arguments (second : a.Says P A d t) (later : List.Forall₂ (Says P A d) parts ts) :
    ∃ ws, (join ", " (a :: parts)).Spelled .verbatim d ws ∧ ∀ x rest,
      Reads P A (.arguments x) (.sign .comma :: (ws ++ .sign .closing :: rest))
        (((t :: ts).map (Course.value A)).foldl A.concat x) rest := by
  obtain ⟨ws, spelled, reads⟩ := second.reads
  induction later generalizing a t ws with
  | nil =>
    rw [join_singleton]
    exact ⟨ws, spelled, fun x rest => .argument (reads _ (stops_sign rfl rfl)) (.noArgument _ rest)⟩
  | @cons b u parts ts third _ ih =>
    obtain ⟨us, spelled', reads'⟩ := third.reads
    obtain ⟨vs, spelled'', reads''⟩ := ih third us spelled' reads'
    have two : join ", " (a :: b :: parts) = join Sign.comma.text [a, join ", " (b :: parts)] := by
      simp [join, Sign.text]
    rw [two]
    refine ⟨_, spelled.pair spelled'' .comma, fun x rest => ?_⟩
    rw [List.append_assoc]
    exact .argument (reads _ (stops_sign rfl rfl)) (reads'' _ rest)

/-- A call of a concatenation is read as the concatenation of what its arguments are read as. -/
lemma Says.concat (first : a.Says P A d t) (second : b.Says P A d u)
    (later : List.Forall₂ (Says P A d) parts ts) :
    ((join ", " (a :: b :: parts)).parenthesized.mapSql ("CONCAT" ++ ·)).Says P A d
      (.closed (A.concatenation ((t :: u :: ts).map (Course.value A)))) := by
  obtain ⟨ws, spelled, reads⟩ := first.reads
  obtain ⟨us, spelled', reads'⟩ := reads_arguments second later
  have two : join ", " (a :: b :: parts) = join Sign.comma.text [a, join ", " (b :: parts)] := by
    simp [join, Sign.text]
  rw [two]
  refine says_closed ((spelled.pair spelled' .comma).parenthesized.prepend .concat) fun rest => ?_
  rw [List.cons_append, List.cons_append, List.append_assoc, List.append_assoc]
  exact .concat (reads _ (stops_sign rfl rfl)) (reads' _ rest)

end Fragment

namespace Expr

/-- A connective is infix when it has no parts, or one that is infix. -/
lemma isInfix_logic (c : Connective) (parts : List Expr) (negated : Bool) :
    (logic c parts negated).isInfix d =
      match negated, parts with
      | false, [] => true
      | false, [p] => p.isInfix d
      | _, _ => false := by
  rw [isInfix, fold_eq]
  cases negated with
  | true => rfl
  | false =>
    match parts with
    | [] | [_] | _ :: _ :: _ => rfl

/-- A term that is not written as an operator between operands, nor with a negation before it, binds as
tight as can be. -/
lemma IsTerm.binds_of_closed (h : e.IsTerm) (closed : e.isInfix d = false)
    (plain : e.negatesBare d = false) (level : Nat) : e.binds P d level = true := by
  induction h with
  | column | literal => rfl
  | arith => exact Bool.or_eq_true_iff.2 (.inl ((Bool.not_eq_false' _).mp closed))
  | compare => cases closed
  | @logic parts c negated _ ih =>
    rw [isInfix_logic] at closed
    rw [negatesBare_logic] at plain
    rw [binds_logic]
    cases negated with
    | true => cases plain
    | false =>
      match parts with
      | [] => cases closed
      | [p] => exact ih p List.mem_cons_self closed plain
      | _ :: _ :: _ => rfl
  | ref _ _ ih | typed _ _ ih => exact ih closed plain

end Expr

/-- All that waits is to be concatenated. -/
def Tight (pending : List (Pending α)) : Prop :=
  ∀ p ∈ pending, ∃ x, p = .binary x .concat

/-- What waits longest is another operator than a concatenation. -/
def Loose (pending : List (Pending α)) : Prop :=
  ∃ later x op, pending = later ++ [.binary x op] ∧ op ≠ .concat

namespace Precedence

/-- In SQLite every other operator binds looser than a concatenation. -/
lemma level_lt_concat {op : BinaryOp} (other : op ≠ .concat) :
    sqlite.level op < sqlite.level .concat := by
  cases op with
  | arith op => cases op <;> decide
  | compare op => cases op <;> decide
  | concat => contradiction

/-- In SQLite no operator binds tighter than a concatenation. -/
lemma level_le_concat (op : BinaryOp) : sqlite.level op ≤ sqlite.level .concat := by
  by_cases h : op = .concat
  · rw [h]
  · exact (level_lt_concat h).le

variable {op : BinaryOp} {s : List (Pending α) × α} {level : Nat} {later : List (Pending α)}
  {p : Pending α}

/-- What waits longest goes on waiting, or binds at the level and has come to its operands with all
others. -/
lemma settle_append (x : α) :
    (∃ later', (P.settle A level (later ++ [p]) x).1 = later' ++ [p]) ∨
      (P.settle A level (later ++ [p]) x).1 = [] ∧ level ≤ P.of p := by
  induction later generalizing x with
  | nil =>
    by_cases tight : level ≤ P.of p
    · exact .inr ⟨by rw [List.nil_append, settle_cons tight, settle], tight⟩
    · exact .inl ⟨[], by rw [List.nil_append, settle, if_neg tight]⟩
  | cons q later ih =>
    by_cases tight : level ≤ P.of q
    · rw [List.cons_append, settle_cons tight]
      exact ih _
    · exact .inl ⟨q :: later, by rw [List.cons_append, settle, if_neg tight]⟩

/-- Where only concatenations wait, every operator makes them come to their operands. -/
lemma shift_of_tight (tight : Tight s.1) : sqlite.shift A op s = [.binary (A.conclude s) op] := by
  rw [shift, settle_of_le]
  intro p mem
  obtain ⟨x, rfl⟩ := tight p mem
  exact level_le_concat op

/-- A concatenation behind concatenations leaves only concatenations waiting. -/
lemma tight_shift (tight : Tight s.1) : Tight (sqlite.shift A .concat s) := by
  rw [shift_of_tight tight]
  exact List.forall_mem_singleton.2 ⟨_, rfl⟩

/-- A looser operator goes on waiting, or an operator as loose takes its place. -/
lemma loose_shift (loose : Loose s.1) : Loose (sqlite.shift A op s) := by
  obtain ⟨later, x, op', waiting, other⟩ := loose
  show Loose (.binary _ op :: (sqlite.settle A (sqlite.level op) s.1 s.2).1)
  rw [waiting]
  rcases settle_append (P := sqlite) (A := A) s.2 with ⟨later', waits⟩ | ⟨none, le⟩
  · rw [waits]
    exact ⟨_ :: later', x, op', rfl, other⟩
  · rw [none]
    refine ⟨[], _, op, rfl, ?_⟩
    rintro rfl
    exact absurd le (Nat.not_le.2 (level_lt_concat other))

/-- In front of an operator other than a concatenation, nothing is left to be concatenated. -/
lemma loose_shift_of_ne (other : op ≠ .concat) (holds : Tight s.1 ∨ Loose s.1) :
    Loose (sqlite.shift A op s) := by
  rcases holds with tight | loose
  · rw [shift_of_tight tight]
    exact ⟨[], _, op, rfl, other⟩
  · exact loose_shift loose

/-- An operator leaves only concatenations waiting, or another operator waiting longest. -/
lemma tight_or_loose_shift (op : BinaryOp) (s : List (Pending α) × α) (holds : Tight s.1 ∨ Loose s.1) :
    Tight (sqlite.shift A op s) ∨ Loose (sqlite.shift A op s) := by
  by_cases concat : op = .concat
  · subst concat
    exact holds.imp tight_shift loose_shift
  · exact .inr (loose_shift_of_ne concat holds)

end Precedence

namespace Course

/-- An argument and tighter ones behind it settle as their concatenation. -/
lemma Settles.concatenation {xs : List α} (first : t.Settles P A (P.level .concat) x)
    (later : List.Forall₂ (fun u y => u.Settles P A (P.level .concat + 1) y) ts xs) :
    (ts.foldl (Course.between P A .concat) t).Settles P A (P.level .concat)
      (xs.foldl A.concat x) := by
  induction later generalizing t x with
  | nil => exact first
  | cons second _ ih => exact ih (first.between .concat (le_refl _) second)

/-- An operator other than a concatenation goes on waiting, or all that waits is to be concatenated. -/
def Waits (t : Course α) : Prop :=
  t.Leads (fun p => Tight p ∨ Loose p) (fun p => Tight p ∨ Loose p) ∧ t.Leads Loose Loose

/-- Behind the argument an operator other than a concatenation waits longest. -/
def Loosens (t : Course α) : Prop :=
  t.Leads (fun p => Tight p ∨ Loose p) Loose

/-- An operator between arguments that wait leaves them waiting. -/
lemma Waits.between (first : t.Waits) (second : u.Waits) :
    (Course.between .sqlite A .concat t u).Waits :=
  ⟨first.1.between (Precedence.tight_or_loose_shift _) second.1,
    first.2.between (fun _ => Precedence.loose_shift) second.2⟩

/-- One argument that leaves a looser operator waiting is enough for the row to leave one. -/
lemma Loosens.concatenation (waits : ∀ u ∈ t :: ts, u.Waits) (mem : u ∈ t :: ts) (loosens : u.Loosens) :
    (ts.foldl (Course.between .sqlite A .concat) t).Loosens := by
  -- the first two arguments are read as one, which leaves the operator waiting if either of them does
  induction ts generalizing t u with
  | nil =>
    obtain rfl := List.mem_singleton.1 mem
    exact loosens
  | cons v ts ih =>
    obtain ⟨first, waits⟩ := List.forall_mem_cons.1 waits
    obtain ⟨second, later⟩ := List.forall_mem_cons.1 waits
    have all := List.forall_mem_cons.2 ⟨first.between (A := A) second, later⟩
    rcases List.mem_cons.1 mem with rfl | mem
    · exact ih all List.mem_cons_self
        (Leads.between loosens (fun _ => Precedence.loose_shift) second.2)
    · rcases List.mem_cons.1 mem with rfl | mem
      · exact ih all List.mem_cons_self
          (first.1.between (Precedence.tight_or_loose_shift _) loosens)
      · exact ih all (List.mem_cons_of_mem _ mem) loosens

end Course

/-- The course of a term without a bare negation is one that waits. -/
lemma waits_course (h : e.IsTerm) (plain : e.negatesBare d = false) : (e.course .sqlite A d).Waits :=
  ⟨leads_course_of_plain h plain Precedence.tight_or_loose_shift,
    leads_course_of_plain h plain fun _ _ => Precedence.loose_shift⟩

open Course in
/-- Arithmetic and comparisons without parentheses leave an operator waiting that is looser than a
concatenation. -/
lemma loosens_course (h : e.IsTerm) (plain : e.negatesBare d = false) (infixed : e.isInfix d = true) :
    (e.course .sqlite A d).Loosens := by
  induction h with
  | column | literal => cases infixed
  | @arith left right op type termL termR _ _ =>
    have infixed : ¬ (op = .pow ∧ d ≠ .postgres) :=
      of_decide_eq_false ((Bool.not_eq_true' _).mp infixed)
    rw [Expr.negatesBare_arith] at plain
    rw [Expr.course_arith, if_neg infixed]
    have operand {s : Expr} (term : s.IsTerm)
        (plain : s.isArithmetic = false → s.negatesBare d = false) :
        (Course.operand A s (s.course .sqlite A d)).Waits :=
      ⟨.operand fun apart => (waits_course term (plain apart)).1,
        .operand fun apart => (waits_course term (plain apart)).2⟩
    -- the operator itself waits behind its left operand, and goes on waiting behind the right one
    refine (operand termL fun apart => ?_).1.between
      (fun _ => Precedence.loose_shift_of_ne nofun) (operand termR fun apart => ?_).2
    · simp only [infixed, apart] at plain
      exact (Bool.or_eq_false_iff.1 plain).1
    · simp only [infixed, apart] at plain
      exact (Bool.or_eq_false_iff.1 plain).2
  | compare op termL termR _ _ =>
    rw [Expr.negatesBare_compare] at plain
    obtain ⟨plainL, plainR⟩ := Bool.or_eq_false_iff.1 plain
    rw [Expr.course_compare]
    exact (waits_course termL plainL).1.between (fun _ => Precedence.loose_shift_of_ne nofun)
      (waits_course termR plainR).2
  | @logic parts c negated _ ih =>
    rw [Expr.isInfix_logic] at infixed
    rw [Expr.negatesBare_logic] at plain
    rw [Expr.course_logic]
    cases negated with
    | true => cases plain
    | false =>
      match parts with
      | [] =>
        have compared : BinaryOp.compare .eq ≠ .concat := nofun
        exact (leads_closed _).between (fun _ => Precedence.loose_shift_of_ne compared) (leads_closed _)
      | [p] => exact ih p List.mem_cons_self plain infixed
      | _ :: _ :: _ => cases infixed
  | ref _ _ ih | typed _ _ ih => exact ih plain infixed

/-- True is what arithmetic and comparisons give, and nothing else. -/
def outermost : Algebra Bool where
  column _ _ := false
  literal _ := false
  arith _ _ _ := true
  compare _ _ _ := true
  connective _ _ _ := false
  not _ := false
  concat _ _ := false
  isNull _ := false
  isNotNull _ := false
  other _ := false

/-- Where another operator waits longest, no concatenation is the outermost one. -/
lemma conclude_outermost {s : List (Pending Bool) × Bool} (loose : Loose s.1) :
    outermost.conclude s = true := by
  obtain ⟨later, x, op, waiting, other⟩ := loose
  rw [Algebra.conclude, waiting, List.foldl_append]
  cases op with
  | concat => contradiction
  | arith | compare => rfl

/-- A concatenation of two or more arguments is the outermost operator itself. -/
lemma concatenation_outermost (x y : Bool) (rest : List Bool) :
    outermost.concatenation (x :: y :: rest) = false := by
  show (y :: rest).foldl (fun _ _ => false) x = false
  induction rest generalizing x y with
  | nil => rfl
  | cons z rest ih => exact ih false z

section

variable {p q : Expr} {rest : List Expr}

/-- Outside of SQLite the text of a concatenation means the concatenation of what its arguments mean. -/
lemma means_call (terms : ∀ s ∈ p :: q :: rest, s.IsTerm)
    (kept : ∀ s ∈ p :: q :: rest, s.Throughout (Expr.KeepsOperands P d)) :
    ((Fragment.join ", "
      ((p :: q :: rest).map (Expr.fold (Expr.assemble d)))).parenthesized.mapSql ("CONCAT" ++ ·)).Means
        P A d (A.concatenation ((p :: q :: rest).map (Expr.meaning A))) := by
  have values : ((p :: q :: rest).map (Expr.course P A d)).map (Course.value A) =
      (p :: q :: rest).map (Expr.meaning A) := by
    rw [List.map_map]
    exact List.map_congr_left fun s mem => value_course (terms s mem) (kept s mem)
  rw [← values]
  cases says_terms terms P A d with
  | cons first later =>
    cases later with
    | cons second later => exact (first.concat second later).means

/-- In bars the text of a concatenation means what the course of its arguments comes to. -/
lemma means_bars (terms : ∀ s ∈ p :: rest, s.IsTerm) :
    (Fragment.join " || " ((p :: rest).map (Expr.fold (Expr.assemble d)))).Means P A d
      (((rest.map (Expr.course P A d)).foldl (Course.between P A .concat) (p.course P A d)).value A) := by
  cases says_terms terms P A d with
  | cons first later => exact (first.bars later).means

/-- Arguments that are neither infix nor have a bare negation come to their concatenation. -/
lemma value_bars (terms : ∀ s ∈ p :: rest, s.IsTerm)
    (kept : ∀ s ∈ p :: rest, s.Throughout (Expr.KeepsOperands P d))
    (plain : ∀ s ∈ p :: rest, s.negatesBare d = false)
    (apart : ∀ s ∈ p :: rest, s.isInfix d = false) :
    ((rest.map (Expr.course P A d)).foldl (Course.between P A .concat) (p.course P A d)).value A =
      A.concatenation ((p :: rest).map (Expr.meaning A)) := by
  have settles (s : Expr) (mem : s ∈ p :: rest) (level : Nat) :
      (s.course P A d).Settles P A level (s.meaning A) :=
    settles_course (terms s mem) (kept s mem)
      ((terms s mem).binds_of_closed (apart s mem) (plain s mem) level)
  refine ((Course.Settles.concatenation (settles p List.mem_cons_self _) ?_).mono (Nat.zero_le _)).value
  rw [List.forall₂_map_left_iff, List.forall₂_map_right_iff]
  exact List.forall₂_same.2 fun s mem => settles s (List.mem_cons_of_mem p mem) _

/-- An argument without parentheses takes what stands next to it, so that it is not a concatenation that
is applied last. -/
lemma value_bars_outermost (terms : ∀ s ∈ p :: rest, s.IsTerm)
    (plain : ∀ s ∈ p :: rest, s.negatesBare d = false) {s : Expr} (mem : s ∈ p :: rest)
    (infixed : s.isInfix d = true) :
    ((rest.map (Expr.course .sqlite outermost d)).foldl (Course.between .sqlite outermost .concat)
      (p.course .sqlite outermost d)).value outermost = true := by
  have waits : ∀ u ∈ (p :: rest).map (Expr.course .sqlite outermost d), u.Waits := by
    intro u among
    obtain ⟨s, mem, rfl⟩ := List.mem_map.1 among
    exact waits_course (terms s mem) (plain s mem)
  have loosens := loosens_course (A := outermost) (terms s mem) (plain s mem) infixed
  exact conclude_outermost (loosens.concatenation waits (List.mem_map_of_mem mem) [] (.inl nofun))

end

/-- On SQLite the arguments stand in the text as they are. The text then means what the call of any
other dialect means, whatever columns, bound values and operators stand for, exactly when no argument is
arithmetic or a comparison without parentheses around it. -/
theorem concat_apart_iff (built : Expr.concat args = .ok e) (terms : ∀ p ∈ args, p.IsTerm)
    (plain : ∀ p ∈ args, p.negatesBare .sqlite = false)
    (kept : ∀ p ∈ args, p.Throughout (Expr.KeepsOperands .sqlite .sqlite))
    (run : (Renderer.standard .sqlite).render e = .ok a) :
    (∃ parts, List.Forall₂ (fun p b => (Renderer.standard .sqlite).render p = .ok b) args parts ∧
      a = .join " || " parts) ∧
    ∀ (d : Dialect) (b : Fragment), d ≠ .sqlite →
      (∀ p ∈ args, p.Throughout (Expr.KeepsOperands d.precedence d)) →
      (Renderer.standard d).render e = .ok b →
      (∀ (α : Type) (A : Algebra α),
        b.Means d.precedence A d (A.concatenation (args.map (Expr.meaning A)))) ∧
        ((∀ (α : Type) (A : Algebra α), ∃ x, a.Means .sqlite A .sqlite x ∧ b.Means d.precedence A d x) ↔
          ∀ p ∈ args, p.isInfix .sqlite = false) := by
  obtain ⟨expressible, rfl⟩ := Renderer.render_eq_ok_iff.1 run
  have sources : ∀ p ∈ args, p.Throughout (Expr.Expressible .sqlite) := by
    obtain ⟨-, rfl⟩ := Expr.of_concat built
    exact (Expr.throughout_iff.1 expressible).2
  rw [fold_concat_sqlite built]
  refine ⟨⟨_, ?_, rfl⟩, fun d b other kept' run' => ?_⟩
  · rw [List.forall₂_map_right_iff]
    exact List.forall₂_same.2 fun p mem => Renderer.render_eq_ok_iff.2 ⟨sources p mem, rfl⟩
  obtain ⟨-, rfl⟩ := Renderer.render_eq_ok_iff.1 run'
  rw [fold_concat built other]
  obtain ⟨⟨p, q, rest, rfl⟩, -⟩ := Expr.of_concat built
  have called {α : Type} (A : Algebra α) := means_call (A := A) terms kept'
  refine ⟨fun α A => called A, fun same => ?_, fun apart α A => ⟨_, ?_, called A⟩⟩
  -- an algebra that tells the outermost operator sees an argument that does not keep together
  · intro s mem
    by_contra infixed
    obtain ⟨x, means, means'⟩ := same Bool outermost
    have last := value_bars_outermost terms plain mem ((Bool.not_eq_false _).mp infixed)
    have first := concatenation_outermost (p.meaning outermost) (q.meaning outermost)
      (rest.map (Expr.meaning outermost))
    rw [← means.unique (means_bars terms), means'.unique (called outermost)] at last
    exact Bool.false_ne_true (first.symm.trans last)
  · rw [← value_bars terms kept plain apart]
    exact means_bars terms

/-- A power under a name and a disjunction with a declared type are no operators in the text
of SQLite. -/
theorem concat_apart_iff_power :
    let pay := Expr.column "T2" "pay" (some .integer)
    let power := Expr.arith pay .pow (.literal (.integer 2) none) none
    let either := Expr.logic .or [.compare pay .gt (.literal (.integer 1) none), .column "T2" "old" none] false
    ∃ e a b, Expr.concat [.column "T2" "name" (some .text), .ref "square" power, .typed either .text] = .ok e ∧
      (Renderer.standard .sqlite).render e = .ok a ∧
      a.sql = "\"T2\".\"name\" || POWER(\"T2\".\"pay\", ?) || (\"T2\".\"pay\" > ? OR \"T2\".\"old\")" ∧
      (Renderer.standard .postgres).render e = .ok b ∧
      b.sql = "CONCAT(\"T2\".\"name\", \"T2\".\"pay\" ^ ?, (\"T2\".\"pay\" > ? OR \"T2\".\"old\"))" ∧
      ∀ (α : Type) (A : Algebra α), ∃ x, a.Means .sqlite A .sqlite x ∧ b.Means .postgres A .postgres x := by
  intro pay power either
  have isPay : pay.IsTerm := .column _ _ _
  have above := isPay.compare .gt (.literal (.integer 1) none)
  have isEither : either.IsTerm := .logic .or false <|
    List.forall_mem_cons.2 ⟨above, List.forall_mem_singleton.2 (.column "T2" "old" none)⟩
  have terms := List.forall_mem_cons.2 ⟨Expr.IsTerm.column "T2" "name" (some .text),
    List.forall_mem_cons.2 ⟨(isPay.arith .pow none (.literal (.integer 2) none)).ref "square",
      List.forall_mem_singleton.2 (isEither.typed .text)⟩⟩
  obtain ⟨-, apart⟩ := concat_apart_iff rfl terms (by decide) (by decide) rfl
  obtain ⟨-, same⟩ := apart .postgres _ (by decide) (by decide) rfl
  exact ⟨_, _, _, rfl, rfl, rfl, rfl, rfl, same.2 (by decide)⟩

/-- The operator takes one operand of the sum in front of it, which is not put into parentheses. -/
theorem concat_run_together :
    (¬ ∀ (args : List Expr) (e : Expr) (a : Fragment) (parts : List Fragment),
      Expr.concat args = .ok e → (Renderer.standard .sqlite).render e = .ok a →
      List.Forall₂ (fun p b => (Renderer.standard .sqlite).render p = .ok b) args parts →
      a = .join " || " (List.zipWith (fun p b => if p.isInfix .sqlite then b.parenthesized else b)
        args parts)) ∧
    ¬ ∀ (args : List Expr) (e : Expr) (a b : Fragment), Expr.concat args = .ok e →
      (∀ p ∈ args, p.IsTerm) → (Renderer.standard .sqlite).render e = .ok a →
      (Renderer.standard .postgres).render e = .ok b →
      ∀ (α : Type) (A : Algebra α), ∃ x, a.Means .sqlite A .sqlite x ∧ b.Means .postgres A .postgres x := by
  let pay := Expr.column "T2" "pay" (some .integer)
  let name := Expr.column "T2" "name" (some .text)
  let raised := Expr.arith pay .add (.literal (.integer 1) none) none
  have raisedTerm : raised.IsTerm := .arith .add none (.column _ _ _) (.literal (.integer 1) none)
  have terms := List.forall_mem_cons.2 ⟨raisedTerm,
    List.forall_mem_singleton.2 (Expr.IsTerm.column "T2" "name" (some .text))⟩
  constructor
  · intro claim
    have text := claim [raised, name] _ _ _ rfl rfl (.cons rfl (.cons rfl .nil))
    exact absurd (congrArg Fragment.sql text) (by decide)
  · intro claim
    obtain ⟨e, built⟩ : ∃ e, Expr.concat [raised, name] = .ok e := ⟨_, rfl⟩
    have renders (d : Dialect) : ∃ a, (Renderer.standard d).render e = .ok a := by
      cases built
      cases d <;> exact ⟨_, rfl⟩
    obtain ⟨a, run⟩ := renders .sqlite
    obtain ⟨b, run'⟩ := renders .postgres
    obtain ⟨x, means, means'⟩ := claim _ e a b built terms run run' Bool outermost
    rw [(Renderer.render_eq_ok_iff.1 run).2, fold_concat_sqlite built] at means
    rw [(Renderer.render_eq_ok_iff.1 run').2, fold_concat built (by decide)] at means'
    -- the sum is what is applied last in the one text, and the concatenation in the other
    have sum := means.unique (means_bars terms)
    have concatenation := means'.unique (means_call terms (by decide))
    exact absurd (sum.symm.trans concatenation) (by decide)

end BoundSql
