import BoundSql.Proofs.Sql.Assembly
import BoundSql.Proofs.Sql.Reading

/-!
# Trees that render alike mean alike

The words that a rendered tree of values or of predicates spells are read as what the tree denotes,
whatever stands behind them (`reads_value`, `holds_predicate`). For that each fragment is given the
words it spells, and each way to put fragments together is shown to spell the words of a phrase of the
grammar. Words with one text are the same words, and there is one way to read them, so that no two
trees with different meanings render alike (`rendering_faithful`).
-/

namespace BoundSql

variable {α : Type} {I : Interpretation α} {d : Dialect} {a b : Fragment}
  {ws us : List (Word α)} {x y : α} {t u : Truth} {extent : Extent} {row : Option Connective}

namespace Fragment

/-- The words spell the text and bind the parameters. -/
structure Spelled (I : Interpretation α) (d : Dialect) (a : Fragment) (ws : List (Word α)) : Prop where
  text : a.sql.toList = ws.flatMap (Word.text d)
  bound : a.params.map I.literal = ws.flatMap Word.bound
  apart : ws.IsChain Word.Apart

/-- The fragment is read as a value, whatever it stands before. -/
def ReadsAs (I : Interpretation α) (d : Dialect) (extent : Extent) (x : α) (a : Fragment) : Prop :=
  ∃ ws, a.Spelled I d ws ∧ ∀ rest, (extent = .whole → NoOperator rest) →
    ReadsValue I extent (ws ++ rest) x rest

/-- The fragment is read as a predicate, or as a row of them. -/
def HoldsAs (I : Interpretation α) (d : Dialect) (row : Option Connective) (t : Truth)
    (a : Fragment) : Prop :=
  ∃ ws, a.Spelled I d ws ∧ ∀ rest, NoOperator rest → (row.isSome = true → NoConnective rest) →
    ReadsPredicate I row (ws ++ rest) t rest

/-- A fragment spells no other words. -/
lemma Spelled.unique (h : a.Spelled I d ws) (h' : a.Spelled I d us) : ws = us :=
  Word.eq_of_text_eq h.apart h'.apart (h.text.symm.trans h'.text) (h.bound.symm.trans h'.bound)

/-- A qualified name is the word for its column. -/
lemma spelled_column (I : Interpretation α) (d : Dialect) (tableAlias name : String) :
    (raw (d.quoteName tableAlias ++ "." ++ d.quoteName name)).Spelled I d
      [.column tableAlias name] where
  text := (List.append_nil _).symm
  bound := rfl
  apart := List.isChain_singleton _

/-- A bound value is the word for its marker. -/
lemma spelled_bind (I : Interpretation α) (d : Dialect) (v : Value) :
    (bind v).Spelled I d [.marker (I.literal v)] where
  text := show "?".toList = ['?'] by decide
  bound := rfl
  apart := List.isChain_singleton _

/-- The text of a sign is the word for the sign. -/
lemma spelled_sign (I : Interpretation α) (d : Dialect) (k : Sign) :
    (raw k.text).Spelled I d [.sign k] where
  text := (List.append_nil _).symm
  bound := rfl
  apart := List.isChain_singleton _

/-- A sign may stand between any words. -/
lemma Spelled.pair (h : a.Spelled I d ws) (h' : b.Spelled I d us) (k : Sign) :
    (join k.text [a, b]).Spelled I d (ws ++ .sign k :: us) where
  text := by
    have sql : (join k.text [a, b]).sql = a.sql ++ k.text ++ b.sql := String.intercalate_cons_cons
    rw [sql, String.toList_append, String.toList_append, h.text, h'.text, List.flatMap_append,
      List.flatMap_cons, List.append_assoc]
    rfl
  bound := by
    have params : (join k.text [a, b]).params = a.params ++ (b.params ++ []) := rfl
    rw [params, List.append_nil, List.map_append, h.bound, h'.bound, List.flatMap_append]
    rfl
  apart := by
    refine h.apart.append (h'.apart.cons fun w _ sign => ?_) fun w _ w' next _ => ?_
    · cases sign
    · cases next
      rfl

/-- A sign before a fragment is spelled before its words. -/
lemma Spelled.prepend (h : a.Spelled I d ws) (k : Sign) :
    (a.mapSql (k.text ++ ·)).Spelled I d (.sign k :: ws) where
  text := by
    rw [mapSql, String.toList_append, h.text]
    rfl
  bound := h.bound
  apart := by
    refine h.apart.cons fun w _ sign => ?_
    cases sign

/-- Parentheses are spelled around the words of a fragment. -/
lemma Spelled.parenthesized (h : a.Spelled I d ws) :
    a.parenthesized.Spelled I d (.sign .opening :: (ws ++ [.sign .closing])) where
  text := by
    rw [Fragment.parenthesized, mapSql, String.toList_append, String.toList_append, h.text,
      List.flatMap_cons, List.flatMap_append, List.append_assoc]
    rfl
  bound := by
    show a.params.map I.literal = _
    rw [h.bound, List.flatMap_cons, List.flatMap_append]
    exact (List.append_nil _).symm
  apart := by
    refine (h.apart.append (List.isChain_singleton _) fun w _ w' next _ => ?_).cons fun w _ sign => ?_
    · cases next
      rfl
    · cases sign

/-- An operand alone is a value. -/
lemma ReadsAs.whole (h : a.ReadsAs I d .operand x) : a.ReadsAs I d .whole x := by
  obtain ⟨ws, spelled, reads⟩ := h
  exact ⟨ws, spelled, fun rest stops => .alone (reads rest nofun) (stops rfl)⟩

/-- A value in parentheses is an operand. -/
lemma ReadsAs.parenthesized (h : a.ReadsAs I d .whole x) :
    a.parenthesized.ReadsAs I d .operand x := by
  obtain ⟨ws, spelled, reads⟩ := h
  refine ⟨_, spelled.parenthesized, fun rest _ => ?_⟩
  have inner := reads (.sign .closing :: rest) fun _ => nofun
  rw [List.cons_append, List.append_assoc]
  exact .parenthesized inner

/-- An operator between two operands is a value. -/
lemma ReadsAs.arith (h : a.ReadsAs I d .operand x) (h' : b.ReadsAs I d .operand y) (op : ArithOp) :
    (a.between op.symbol b).ReadsAs I d .whole (I.arith op x y) := by
  obtain ⟨ws, spelled, reads⟩ := h
  obtain ⟨us, spelled', reads'⟩ := h'
  refine ⟨_, spelled.pair spelled' (.arith op), fun rest _ => ?_⟩
  rw [List.append_assoc]
  exact .arith (reads _ nofun) (reads' rest nofun)

/-- A power written as a call is an operand. -/
lemma ReadsAs.power (h : a.ReadsAs I d .whole x) (h' : b.ReadsAs I d .whole y) :
    ((join ", " [a, b]).parenthesized.mapSql ("POWER" ++ ·)).ReadsAs I d .operand
      (I.arith .pow x y) := by
  obtain ⟨ws, spelled, reads⟩ := h
  obtain ⟨us, spelled', reads'⟩ := h'
  refine ⟨_, (spelled.pair spelled' .comma).parenthesized.prepend .power, fun rest _ => ?_⟩
  rw [List.cons_append, List.cons_append, List.append_assoc, List.append_assoc]
  exact .power (reads _ fun _ => nofun) (reads' _ fun _ => nofun)

/-- A comparison of two values is a predicate. -/
lemma ReadsAs.compare (h : a.ReadsAs I d .whole x) (h' : b.ReadsAs I d .whole y) (op : CompareOp) :
    (a.between op.symbol b).HoldsAs I d none (I.compare op x y) := by
  obtain ⟨ws, spelled, reads⟩ := h
  obtain ⟨us, spelled', reads'⟩ := h'
  refine ⟨_, spelled.pair spelled' (.compare op), fun rest stops _ => ?_⟩
  rw [List.append_assoc]
  exact .compare (reads _ fun _ => nofun) (reads' rest fun _ => stops)

/-- What stands for a connective without parts is as true as the connective. -/
lemma holdsAs_neutral (I : Interpretation α) (d : Dialect) (c : Connective) :
    (raw (Sign.neutral c).text).HoldsAs I d none (c.truth []) :=
  ⟨_, spelled_sign I d _, fun rest _ _ => .neutral c rest⟩

/-- A predicate alone is a row of predicates. -/
lemma HoldsAs.last (h : a.HoldsAs I d none t) (c : Connective) : a.HoldsAs I d (some c) t := by
  obtain ⟨ws, spelled, reads⟩ := h
  exact ⟨ws, spelled, fun rest stops ends => .last (reads rest stops nofun) (ends rfl)⟩

/-- A predicate, a connective and a row of predicates under this connective are a row. -/
lemma HoldsAs.more {c : Connective} (h : a.HoldsAs I d none t) (h' : b.HoldsAs I d (some c) u) :
    (join (" " ++ c.keyword ++ " ") [a, b]).HoldsAs I d (some c) (c.truth [t, u]) := by
  obtain ⟨ws, spelled, reads⟩ := h
  obtain ⟨us, spelled', reads'⟩ := h'
  refine ⟨_, spelled.pair spelled' (.connective c), fun rest stops ends => ?_⟩
  rw [List.append_assoc]
  exact .more (reads _ nofun nofun) (reads' rest stops ends)

/-- A row of predicates in parentheses is a predicate. -/
lemma HoldsAs.parenthesized {c : Connective} (h : a.HoldsAs I d (some c) t) :
    a.parenthesized.HoldsAs I d none t := by
  obtain ⟨ws, spelled, reads⟩ := h
  refine ⟨_, spelled.parenthesized, fun rest _ _ => ?_⟩
  rw [List.cons_append, List.append_assoc]
  exact .parenthesized (reads _ nofun fun _ => nofun)

/-- A row of predicates in parentheses may be negated. -/
lemma HoldsAs.not {c : Connective} (h : a.HoldsAs I d (some c) t) :
    (a.parenthesized.mapSql ("NOT " ++ ·)).HoldsAs I d none t.not := by
  obtain ⟨ws, spelled, reads⟩ := h
  refine ⟨_, spelled.parenthesized.prepend .not, fun rest _ _ => ?_⟩
  rw [List.cons_append, List.cons_append, List.append_assoc]
  exact .not (reads _ nofun fun _ => nofun)

/-- Predicates with a connective between them. -/
lemma holdsAs_join (c : Connective) {parts : List Fragment} {ts : List Truth} (some_part : parts ≠ [])
    (h : List.Forall₂ (fun a t => a.HoldsAs I d none t) parts ts) :
    (join (" " ++ c.keyword ++ " ") parts).HoldsAs I d (some c) (c.truth ts) := by
  induction h with
  | nil => contradiction
  | @cons a t parts ts first later ih =>
    cases later with
    | nil =>
      rw [join_singleton, Connective.truth_singleton]
      exact first.last c
    | @cons b u parts ts =>
      have two : join (" " ++ c.keyword ++ " ") (a :: b :: parts) =
          join (" " ++ c.keyword ++ " ") [a, join (" " ++ c.keyword ++ " ") (b :: parts)] := by
        simp [join]
      rw [two, c.truth_cons]
      exact first.more (ih (List.cons_ne_nil b parts))

end Fragment

/-- Arithmetic is written between its operands, or else as the call of a power. -/
inductive WritesArith (left : Expr) (op : ArithOp) (right : Expr) (a b : Fragment) : Fragment → Prop
  | between :
      WritesArith left op right a b ((left.operand a).between op.symbol (right.operand b))
  | power : op = .pow →
      WritesArith left op right a b ((Fragment.join ", " [a, b]).parenthesized.mapSql ("POWER" ++ ·))

namespace Renderer

variable {e left right : Expr} {op : ArithOp} {type : Option SqlType} {c : Fragment}

/-- A node without an override is rendered generically from its rendered sources. -/
lemma render_of_get?_none (plain : Overrides.standard.get? d e.kind = none) :
    (standard d).render e = (standard d).renderGeneric e (e.sources.map (standard d).render) := by
  rw [render_eq, renderNode_of_get?_none plain]

/-- Arithmetic that is rendered generically is written from its rendered operands. -/
lemma renderGeneric_arith {r : Renderer}
    (run : r.renderGeneric (.arith left op right type) [r.render left, r.render right] = .ok c) :
    ∃ a b, r.render left = .ok a ∧ r.render right = .ok b ∧ WritesArith left op right a b c := by
  obtain ⟨-, -, run⟩ := except_bind_ok run
  obtain ⟨a, first, run⟩ := except_bind_ok run
  obtain ⟨b, second, run⟩ := except_bind_ok run
  cases run
  exact ⟨a, b, first, second, .between⟩

/-- Arithmetic that is rendered with powers as calls is written from its rendered operands. -/
lemma renderCustom_arith {r : Renderer}
    (run : r.renderCustom .powerAsCall (.arith left op right type)
      [r.render left, r.render right] = .ok c) :
    ∃ a b, r.render left = .ok a ∧ r.render right = .ok b ∧ WritesArith left op right a b c := by
  cases op with
  | pow =>
    obtain ⟨-, -, run⟩ := except_bind_ok run
    obtain ⟨a, first, run⟩ := except_bind_ok run
    obtain ⟨b, second, run⟩ := except_bind_ok run
    cases run
    exact ⟨a, b, first, second, .power rfl⟩
  | _ => exact renderGeneric_arith run

/-- Arithmetic is written from its rendered operands in every dialect. -/
lemma render_arith (run : (standard d).render (.arith left op right type) = .ok c) :
    ∃ a b, (standard d).render left = .ok a ∧ (standard d).render right = .ok b ∧
      WritesArith left op right a b c := by
  rw [render_eq] at run
  cases d with
  | postgres => exact renderGeneric_arith run
  | sqlite | mysql => exact renderCustom_arith run

end Renderer

open Fragment Renderer

variable {e : Expr}

/-- An operand is read as one, since arithmetic is put into parentheses. -/
lemma reads_operand (whole : a.ReadsAs I d .whole x)
    (operand : e.isArithmetic = false → a.ReadsAs I d .operand x) :
    (e.operand a).ReadsAs I d .operand x := by
  rw [Expr.operand]
  split
  · exact whole.parenthesized
  · exact operand (Bool.eq_false_iff.2 ‹_›)

/-- A tree of values is read as its value. -/
theorem reads_value (h : e.IsValue) (I : Interpretation α)
    (run : (standard d).render e = .ok a) :
    ∃ x, e.value? I = some x ∧ a.ReadsAs I d .whole x ∧
      (e.isArithmetic = false → a.ReadsAs I d .operand x) := by
  induction h generalizing a with
  | column tableAlias name =>
    rw [render_of_get?_none (by cases d <;> rfl)] at run
    cases run
    have operand : (raw _).ReadsAs I d .operand (I.column tableAlias name) :=
      ⟨_, spelled_column I d tableAlias name, fun rest _ => .column tableAlias name rest⟩
    exact ⟨_, rfl, operand.whole, fun _ => operand⟩
  | literal v =>
    rw [render_of_get?_none (by cases d <;> rfl)] at run
    cases run
    have operand : (bind v).ReadsAs I d .operand (I.literal v) :=
      ⟨_, spelled_bind I d v, fun rest _ => .marker _ rest⟩
    exact ⟨_, rfl, operand.whole, fun _ => operand⟩
  | arith op type _ _ ihl ihr =>
    obtain ⟨b, c, first, second, written⟩ := render_arith run
    obtain ⟨x, hx, whole, operand⟩ := ihl first
    obtain ⟨y, hy, whole', operand'⟩ := ihr second
    -- operands that are arithmetic stand in parentheses, and the others need none
    refine ⟨_, Expr.value?_arith op type hx hy, ?_, nofun⟩
    cases written with
    | between => exact (reads_operand whole operand).arith (reads_operand whole' operand') op
    | power isPow =>
      rw [isPow]
      exact (whole.power whole').whole
  | ref | typed =>
    rw [render_of_get?_none (by cases d <;> rfl)] at run
    rename_i ih
    exact ih run

/-- The parts of a predicate with their truth. -/
lemma holds_parts {parts : List Expr} {fs : List Fragment}
    (ih : ∀ p ∈ parts, ∀ {a}, (standard d).render p = .ok a →
      ∃ t, p.truth? I = some t ∧ a.HoldsAs I d none t)
    (run : parts.mapM (standard d).render = .ok fs) :
    ∃ ts, List.Forall₂ (fun p t => p.truth? I = some t) parts ts ∧
      List.Forall₂ (fun a t => a.HoldsAs I d none t) fs ts := by
  have rendered := except_mapM_ok run
  clear run
  induction rendered with
  | nil => exact ⟨[], .nil, .nil⟩
  | cons first _ tail =>
    obtain ⟨head, later⟩ := List.forall_mem_cons.1 ih
    obtain ⟨t, truth, holds⟩ := head first
    obtain ⟨ts, truths, hold⟩ := tail later
    exact ⟨t :: ts, .cons truth truths, .cons holds hold⟩

/-- A compound predicate is read as one, in parentheses or not. -/
lemma holds_logic {parts : List Expr} {c : Connective} {negated : Bool}
    (ih : ∀ p ∈ parts, ∀ {a}, (standard d).render p = .ok a →
      ∃ t, p.truth? I = some t ∧ a.HoldsAs I d none t)
    (run : renderLogic c negated (parts.map (standard d).render) = .ok a) :
    ∃ t, (Expr.logic c parts negated).truth? I = some t ∧ a.HoldsAs I d none t := by
  obtain ⟨fs, parts_ok, run⟩ := except_bind_ok run
  rw [List.mapM_map] at parts_ok
  obtain ⟨ts, truths, hold⟩ := holds_parts ih parts_ok
  refine ⟨_, Expr.truth?_logic c negated truths, ?_⟩
  cases run
  cases hold with
  | nil =>
    have neutral := holdsAs_neutral I d c
    cases negated with
    | true =>
      have wrapped := (neutral.last c).not
      cases c <;> exact wrapped
    | false => cases c <;> exact neutral
  | @cons b t fs ts first later =>
    have row := holdsAs_join c (List.cons_ne_nil b fs) (.cons first later)
    cases negated with
    | true => exact row.not
    | false =>
      cases later with
      | nil =>
        show (join (" " ++ c.keyword ++ " ") [b]).HoldsAs I d none (c.truth [t])
        rw [join_singleton, Connective.truth_singleton]
        exact first
      | cons => exact row.parenthesized

/-- A tree of predicates is read as what it says. -/
theorem holds_predicate (h : e.IsPredicate) (I : Interpretation α)
    (run : (standard d).render e = .ok a) :
    ∃ t, e.truth? I = some t ∧ a.HoldsAs I d none t := by
  induction h generalizing a with
  | compare op left right =>
    rw [render_of_get?_none (by cases d <;> rfl)] at run
    obtain ⟨b, first, run⟩ := except_bind_ok run
    obtain ⟨c, second, run⟩ := except_bind_ok run
    cases run
    obtain ⟨x, hx, whole, -⟩ := reads_value left I first
    obtain ⟨y, hy, whole', -⟩ := reads_value right I second
    exact ⟨_, Expr.truth?_compare op hx hy, whole.compare whole' op⟩
  | logic c negated _ ih =>
    rw [render_of_get?_none (by cases d <;> rfl)] at run
    exact holds_logic (fun p mem => ih p mem) run
  | ref | typed =>
    rw [render_of_get?_none (by cases d <;> rfl)] at run
    rename_i ih
    exact ih run

/-- Trees that render to one text with the same parameters have one meaning, under whatever the columns,
bound values and operators stand for. -/
theorem rendering_faithful {e' : Expr} (run : (standard d).render e = .ok a)
    (run' : (standard d).render e' = .ok a) (I : Interpretation α) :
    (e.IsValue → e'.IsValue → ∃ x, e.value? I = some x ∧ e'.value? I = some x) ∧
      (e.IsPredicate → e'.IsPredicate → ∃ t, e.truth? I = some t ∧ e'.truth? I = some t) := by
  constructor
  · intro value value'
    obtain ⟨x, denotes, ⟨ws, spelled, reads⟩, -⟩ := reads_value value I run
    obtain ⟨y, denotes', ⟨us, spelled', reads'⟩, -⟩ := reads_value value' I run'
    obtain rfl := spelled.unique spelled'
    -- both readings go to the end of the words
    have nothing : NoOperator ([] : List (Word α)) := fun _ => nofun
    obtain ⟨rfl, -⟩ := (reads [] fun _ => nothing).unique (reads' [] fun _ => nothing)
    exact ⟨x, denotes, denotes'⟩
  · intro predicate predicate'
    obtain ⟨t, denotes, ws, spelled, reads⟩ := holds_predicate predicate I run
    obtain ⟨u, denotes', us, spelled', reads'⟩ := holds_predicate predicate' I run'
    obtain rfl := spelled.unique spelled'
    have nothing : NoOperator ([] : List (Word α)) := fun _ => nofun
    obtain ⟨rfl, -⟩ := (reads [] nothing nofun).unique (reads' [] nothing nofun) rfl
    exact ⟨t, denotes, denotes'⟩

/-- Every column is ten. Sums, products and what is greater are as usual. -/
def tens : Interpretation Int where
  column _ _ := 10
  literal
    | .integer n => n.toInt
    | _ => 0
  arith
    | .add, x, y => x + y
    | .mul, x, y => x * y
    | _, x, _ => x
  compare
    | .gt, x, y => if y < x then .yes else .no
    | _, _, _ => .unknown

/-- Twice of pay and one more, in which the sum is written as the function makes it. -/
def raiseDoubled (sum : Expr → Expr) : Expr :=
  let raised := Expr.arith (.column "T2" "pay" (some .integer)) .add (.literal (.integer 1) none) none
  .arith (sum raised) .mul (.literal (.integer 2) none) none

/-- A sum with a name and one with a type render alike, as do one part of a conjunction and one of a
disjunction. -/
theorem rendering_faithful_raiseDoubled :
    let text := Fragment.mk "(\"T2\".\"pay\" + ?) * ?" [.integer 1, .integer 2]
    let above := Expr.compare (raiseDoubled (Expr.ref "raised")) .gt (.literal (.integer 20) none)
    let single c := Expr.logic c [above] false
    (standard .postgres).render (raiseDoubled (Expr.ref "raised")) = .ok text ∧
      (standard .postgres).render (raiseDoubled (Expr.typed · .decimal)) = .ok text ∧
      (standard .postgres).render (single .and) = (standard .postgres).render (single .or) ∧
      (∃ x, x = 22 ∧ (raiseDoubled (Expr.ref "raised")).value? tens = some x ∧
        (raiseDoubled (Expr.typed · .decimal)).value? tens = some x) ∧
      ∃ t, t = Truth.yes ∧ (single .and).truth? tens = some t ∧ (single .or).truth? tens = some t := by
  have raised := (Expr.IsValue.column "T2" "pay" (some .integer)).arith .add none
    (.literal (.integer 1) none)
  have two := Expr.IsValue.literal (.integer 2) none
  have twenty := Expr.IsValue.literal (.integer 20) none
  have named := (raised.ref "raised").arith .mul none two
  have single (c : Connective) := Expr.IsPredicate.logic c false
    (List.forall_mem_singleton.2 (.compare .gt named twenty))
  obtain ⟨x, first, second⟩ := (rendering_faithful (d := .postgres) rfl rfl tens).1 named
    ((raised.typed .decimal).arith .mul none two)
  obtain ⟨t, truth, truth'⟩ := (rendering_faithful (d := .postgres) rfl rfl tens).2 (single .and)
    (single .or)
  refine ⟨rfl, rfl, rfl, ⟨x, ?_, first, second⟩, t, ?_, truth, truth'⟩
  · exact Option.some.inj first.symm
  · exact Option.some.inj truth.symm

end BoundSql
