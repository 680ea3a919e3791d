import BoundSql.Proofs.Expr.Within
import BoundSql.Proofs.Select.Statement
import BoundSql.Proofs.Sql.Assembly

/-!
# The order of parameters

What a tree binds are the values of its literals, from left to right, whatever the templates of its
calls do with their arguments. The exception is a sort key on MySQL with a stated placement of NULL,
which is written twice. A statement binds what its expressions bind, clause by clause
(`params_follow_order`).
-/

namespace BoundSql

/-- The value of a constant. -/
def Expr.literal? : Expr → Option Value
  | .literal value _ => some value
  | _ => none

/-- Whether the dialect writes the source of the node twice, once to sort NULL. -/
def Expr.isTwofold (d : Dialect) : Expr → Bool
  | .sorted _ _ nulls => d = .mysql && nulls ≠ .unspecified
  | _ => false

/-- What a node binds, given what its sources bind. -/
def Expr.bound (d : Dialect) (e : Expr) (sources : List (List Value)) : List Value :=
  let values := e.literal?.toList ++ sources.flatten
  if e.isTwofold d then values ++ values else values

/-- The values of the literals of a tree, depth first and from left to right, where what is written
twice counts twice in a row. -/
def Expr.boundValues (d : Dialect) : Expr → List Value :=
  fold (bound d)

variable {d : Dialect} {e : Expr} {es : List Expr} {a : Fragment} {parts : List Fragment}

namespace Fragment

/-- An operator keeps the parameters of its operands, those of the left one first. -/
lemma params_between (a b : Fragment) (operator : String) :
    (a.between operator b).params = a.params ++ b.params := by
  simp [between, join]

/-- A power has the parameters of its base and then those of its exponent. -/
lemma params_power (a b : Fragment) : (power a b).params = a.params ++ b.params := by
  simp [power, join, parenthesized, mapSql]

/-- A connective has the parameters of its parts in order. -/
lemma params_logic (connective : Connective) (negated : Bool) (parts : List Fragment) :
    (logic connective negated parts).params = parts.flatMap (·.params) := by
  have wrapped (body : Fragment) (count : Nat) :
      (if negated then body.parenthesized.mapSql ("NOT " ++ ·)
        else if 1 < count then body.parenthesized else body).params = body.params := by
    split_ifs <;> rfl
  cases parts with
  | nil => cases connective <;> exact wrapped _ _
  | cons => exact wrapped _ _

/-- A sort key has the parameters that are bound for it, once more where a null test comes first. -/
lemma params_sorted (source : Expr) (direction : SortDirection) (nulls : NullPlacement)
    (key : Fragment) :
    (sorted d direction nulls key).params =
      Expr.bound d (.sorted source direction nulls) [key.params] := by
  cases d with
  | mysql =>
    -- the test for NULL comes first, with the values of the key once more
    cases nulls <;> simp [sorted, Expr.bound, Expr.literal?, Expr.isTwofold, join, mapSql]
  | _ => cases nulls <;> simp [sorted, Expr.bound, Expr.literal?, Expr.isTwofold, mapSql]

end Fragment

namespace Expr

/-- Parentheses around an operand bind nothing. -/
lemma params_operand (e : Expr) (a : Fragment) : (e.operand a).params = a.params := by
  rw [operand]
  split <;> rfl

/-- A node binds what its sources bind, in their order. -/
lemma params_assemble (length : parts.length = e.sources.length) :
    (e.assemble d parts).params = e.bound d (parts.map (·.params)) := by
  cases e with
  | field | column | literal | star =>
    obtain rfl := List.eq_nil_of_length_eq_zero length
    rfl
  | ref | typed =>
    obtain ⟨a, rfl⟩ := List.length_eq_one_iff.1 length
    simp [assemble, bound, literal?, isTwofold]
  | arith left op right type =>
    obtain ⟨a, b, rfl⟩ := List.length_eq_two.1 length
    have both : (assemble d (.arith left op right type) [a, b]).params = a.params ++ b.params := by
      rw [assemble]
      split
      · exact Fragment.params_power a b
      · rw [Fragment.params_between, params_operand, params_operand]
    simp [both, bound, literal?, isTwofold]
  | compare =>
    obtain ⟨a, b, rfl⟩ := List.length_eq_two.1 length
    simp [assemble, Fragment.params_between, bound, literal?, isTwofold]
  | call | aggregate => exact List.flatMap_def
  | logic connective _ negated =>
    exact (Fragment.params_logic connective negated parts).trans List.flatMap_def
  | sorted source direction nulls =>
    obtain ⟨key, rfl⟩ := List.length_eq_one_iff.1 length
    exact Fragment.params_sorted source direction nulls key

/-- A tree is assembled with its bound values, in order, as parameters. -/
lemma params_fold_assemble (d : Dialect) (e : Expr) :
    (e.fold (assemble d)).params = e.boundValues d := by
  induction e using Expr.induction with
  | node e ih =>
    rw [boundValues, fold_eq, params_assemble (List.length_map _), fold_eq (bound d), List.map_map]
    congr 1
    exact List.map_congr_left ih

/-- A tree binds the values of its literals. -/
lemma params_eq_boundValues (run : (Renderer.standard d).render e = .ok a) :
    a.params = e.boundValues d := by
  obtain ⟨-, rfl⟩ := Renderer.render_eq_ok_iff.1 run
  exact params_fold_assemble d e

/-- Where nothing is written twice, the values are those of the nodes, each before its sources. -/
lemma boundValues_eq_filterMap (once : e.Throughout fun n => n.isTwofold d = false) :
    e.boundValues d = e.nodes.filterMap literal? := by
  induction e using Expr.induction with
  | node e ih =>
    obtain ⟨root, sources⟩ := throughout_iff.1 once
    have below : e.sources.map (boundValues d) = e.sources.map fun s => s.nodes.filterMap literal? :=
      List.map_congr_left fun s mem => ih s mem (sources s mem)
    calc e.boundValues d
      _ = e.literal?.toList ++ (e.sources.map (boundValues d)).flatten := by
        rw [boundValues, fold_eq, bound, root]
        rfl
      _ = e.literal?.toList ++ (e.sources.flatMap nodes).filterMap literal? := by
        rw [below, List.filterMap_flatMap, List.flatMap_def]
      _ = e.nodes.filterMap literal? := by
        rw [nodes, fold_eq, List.filterMap_cons, ← List.flatMap_def]
        cases e.literal? <;> rfl

end Expr

namespace Select

/-- The expressions of a statement with parameters, in the order in which it binds them. -/
def expressions (s : Select) : List Expr :=
  (if s.summary.isEmpty then s.selectList ++ s.computed.map (·.2) else s.summary.map (·.2)) ++
    s.conditions ++ s.groupConditions ++ (if s.summary.isEmpty then s.order else [])

variable {s : Select}

/-- A row binds what its elements bind, one after the other. -/
lemma params_mapM {α : Type} {f : α → Except Error Fragment} {g : α → List Value} {l : List α}
    (each : ∀ x a, f x = .ok a → a.params = g x) (run : l.mapM f = .ok parts) :
    parts.flatMap (·.params) = l.flatMap g := by
  have related := except_mapM_ok run
  clear run
  induction related with
  | nil => rfl
  | cons first _ ih => rw [List.flatMap_cons, List.flatMap_cons, each _ _ first, ih]

/-- A name binds nothing. -/
lemma params_renderNamed {named : String × Expr}
    (run : renderNamed (Renderer.standard d) named = .ok a) : a.params = named.2.boundValues d := by
  obtain ⟨body, rendered, last⟩ := except_bind_ok run
  cases last
  show body.params = _
  exact Expr.params_eq_boundValues rendered

/-- What is selected binds the select list and the computed columns, or else the summary. -/
lemma params_renderSelected (run : s.renderSelected (Renderer.standard d) = .ok a) :
    a.params = (if s.summary.isEmpty then s.selectList ++ s.computed.map (·.2)
      else s.summary.map (·.2)).flatMap (Expr.boundValues d) := by
  rw [renderSelected] at run
  split at run
  · obtain ⟨columns, first, run⟩ := except_bind_ok run
    obtain ⟨computed, second, run⟩ := except_bind_ok run
    cases run
    have columns := params_mapM (fun _ _ => Expr.params_eq_boundValues) first
    have computed := params_mapM (fun _ _ => params_renderNamed) second
    rw [if_pos ‹_›, List.flatMap_append, List.flatMap_map, ← columns, ← computed]
    exact List.flatMap_append
  · obtain ⟨summary, rendered, run⟩ := except_bind_ok run
    cases run
    rw [if_neg ‹_›, List.flatMap_map]
    exact params_mapM (fun _ _ => params_renderNamed) rendered

/-- A clause has the bound values of its expressions, in order, as parameters. -/
lemma params_renderClause {keyword separator : String}
    (run : renderClause (Renderer.standard d) keyword separator es = .ok a) :
    a.params = es.flatMap (Expr.boundValues d) := by
  cases es with
  | nil =>
    cases run
    rfl
  | cons e es =>
    obtain ⟨body, joined, last⟩ := except_bind_ok run
    cases last
    obtain ⟨parts, rendered, last⟩ := except_bind_ok joined
    cases last
    exact params_mapM (fun _ _ => Expr.params_eq_boundValues) rendered

/-- The columns to group by bind nothing. -/
lemma boundValues_groupBy (d : Dialect) (s : Select) :
    (s.groupBy.getD []).flatMap (Expr.boundValues d) = [] := by
  apply List.flatMap_eq_nil_iff.2
  intro e mem
  obtain ⟨columnar, -⟩ := mem_groupBy mem
  cases e with
  | column | field => rfl
  | _ => simp [Expr.isColumn, Expr.isField] at columnar

/-- A statement has the bound values of its expressions, clause by clause, as parameters. -/
lemma params_render (run : s.render (Renderer.standard d) = .ok a) :
    a.params = s.expressions.flatMap (Expr.boundValues d) := by
  obtain ⟨selected, selected_ok, run⟩ := except_bind_ok run
  obtain ⟨conditions, conditions_ok, run⟩ := except_bind_ok run
  obtain ⟨groups, groups_ok, run⟩ := except_bind_ok run
  obtain ⟨groupConditions, groupConditions_ok, run⟩ := except_bind_ok run
  obtain ⟨order, order_ok, run⟩ := except_bind_ok run
  cases run
  have selected := params_renderSelected selected_ok
  have conditions := params_renderClause conditions_ok
  have groups : groups.params = [] := by
    rw [params_renderClause groups_ok, boundValues_groupBy]
  have groupConditions := params_renderClause groupConditions_ok
  have order := params_renderClause order_ok
  simp only [expressions, List.flatMap_append, ← selected, ← conditions, ← groupConditions, ← order]
  simp [Fragment.join, Fragment.raw, groups]

/-- The parameters of an expression are the values of its literals in order, where a sort key on MySQL
with a stated placement of NULL counts twice in a row; without such keys they are the values of the
literals among its nodes, each node before its sources. The parameters of a statement are those of
the select list and of the computed columns, or else of the summary, then of the conditions, of the
group conditions and of the sort keys. -/
theorem params_follow_order (d : Dialect) :
    (∀ e a, (Renderer.standard d).render e = .ok a →
      a.params = e.boundValues d ∧
        ((e.Throughout fun n => n.isTwofold d = false) →
          a.params = e.nodes.filterMap Expr.literal?)) ∧
    ∀ (s : Select) (a : Fragment), s.render (Renderer.standard d) = .ok a →
      a.params = s.expressions.flatMap (Expr.boundValues d) := by
  refine ⟨fun e a run => ?_, fun s a run => params_render run⟩
  have params := Expr.params_eq_boundValues run
  exact ⟨params, fun once => params.trans (Expr.boundValues_eq_filterMap once)⟩

/-- A constant number. -/
def number (n : Int64) : Expr :=
  .literal (.integer n) none

/-- A query with literals in all of its clauses. -/
def numberedClauses : Select :=
  { allStaff with
    columns := [.column "T2" "name" none]
    computed := [("raise", .arith (number 1) .pow (number 2) none)]
    conditions := [.compare (number 3) .lt (number 4)]
    groupConditions := [.compare (number 5) .lt (number 6)]
    order := [.sorted (number 7) .ascending .last] }

/-- The statement for MySQL of the query with literals in all clauses. -/
def numberedStatement : Fragment where
  sql := "SELECT `T2`.`name`, POWER(?, ?) AS `raise` FROM `T2` WHERE ? < ? " ++
    "GROUP BY `T2`.`name` HAVING ? < ? ORDER BY ? IS NULL, ? ASC"
  params := [1, 2, 3, 4, 5, 6, 7, 7].map .integer

/-- The literals of the clauses are bound in order, and the sort key twice. -/
theorem params_follow_order_numberedClauses :
    numberedClauses.render (Renderer.standard .mysql) = .ok numberedStatement ∧
      numberedClauses.expressions.flatMap (Expr.boundValues .mysql) = numberedStatement.params ∧
      (Renderer.standard .mysql).render (.compare (number 3) .lt (number 4)) =
        .ok ⟨"? < ?", [.integer 3, .integer 4]⟩ ∧
      (Expr.compare (number 3) .lt (number 4)).nodes.filterMap Expr.literal? =
        [.integer 3, .integer 4] := by
  have statement : numberedClauses.render (Renderer.standard .mysql) = .ok numberedStatement := rfl
  have condition : (Renderer.standard .mysql).render (.compare (number 3) .lt (number 4)) =
      .ok ⟨"? < ?", [.integer 3, .integer 4]⟩ := rfl
  have ⟨expressions, statements⟩ := params_follow_order .mysql
  exact ⟨statement, (statements _ _ statement).symm, condition,
    ((expressions _ _ condition).2 (by decide)).symm⟩

end Select

end BoundSql
