import BoundSql.Proofs.Expr.Resolved

/-!
# Filled trees

A tree whose field paths are replaced by expressions of a list, the first path by the first one and so
on. `fill` does it node by node, from left to right, and says for each kind of node what stays as it is.
A tree that resolves by some answers resolves to the tree that is filled with them
(`ResolvesTo.fill_eq`).
-/

namespace BoundSql.Expr

mutual

/-- The tree with expressions of a list in place of its field paths, and the expressions that are left.
References stay as they are, and aggregates become ones over all rows or not. -/
def fill (summarize : Bool) : Expr → List Expr → Expr × List Expr
  | .field path, [] => (.field path, [])
  | .field _, answer :: answers => (answer, answers)
  | .column tableAlias name type, answers => (.column tableAlias name type, answers)
  | .ref name source, answers => (.ref name source, answers)
  | .literal value type, answers => (.literal value type, answers)
  | .star, answers => (.star, answers)
  | .arith left op right type, answers =>
    let (left, answers) := fill summarize left answers
    let (right, answers) := fill summarize right answers
    (.arith left op right type, answers)
  | .call head args, answers =>
    let (args, answers) := fillList summarize args answers
    (.call head args, answers)
  | .aggregate kind head args distinct _, answers =>
    let (args, answers) := fillList summarize args answers
    (.aggregate kind head args distinct summarize, answers)
  | .sorted source direction nulls, answers =>
    let (source, answers) := fill summarize source answers
    (.sorted source direction nulls, answers)
  | .compare left op right, answers =>
    let (left, answers) := fill summarize left answers
    let (right, answers) := fill summarize right answers
    (.compare left op right, answers)
  | .logic connective parts negated, answers =>
    let (parts, answers) := fillList summarize parts answers
    (.logic connective parts negated, answers)
  | .typed source type, answers =>
    let (source, answers) := fill summarize source answers
    (.typed source type, answers)

/-- The same for the trees of a list, one after another. -/
def fillList (summarize : Bool) : List Expr → List Expr → List Expr × List Expr
  | [], answers => ([], answers)
  | e :: es, answers =>
    let (e, answers) := fill summarize e answers
    let (es, answers) := fillList summarize es answers
    (e :: es, answers)

end

variable {summarize : Bool} {e r : Expr} {es answers : List Expr}

/-- A node that is not a field or reference is filled by filling its sources in order. -/
lemma fill_node (field : e.isField = false) (ref : e.isRef = false) (answers : List Expr) :
    e.fill summarize answers =
      (e.rebound summarize (fillList summarize e.sources answers).1,
        (fillList summarize e.sources answers).2) := by
  cases e with
  | field | ref => contradiction
  | _ => simp [fill, fillList, sources, rebound, replaceSources]

/-- Trees that resolve one by one are filled in a row. -/
lemma fillList_eq {resolved : List (List Expr × Expr)}
    (each : List.Forall₂ (fun e a => ∀ rest, e.fill summarize (a.1 ++ rest) = (a.2, rest)) es resolved)
    (rest : List Expr) :
    fillList summarize es (resolved.flatMap (·.1) ++ rest) = (resolved.map (·.2), rest) := by
  induction each with
  | nil => rfl
  | @cons e a es resolved first _ ih =>
    rw [List.flatMap_cons, List.append_assoc, fillList, first]
    dsimp only
    rw [ih]
    rfl

/-- A tree that resolves by answers is filled with these, and uses up all of them. -/
lemma ResolvesTo.fill_append (h : e.ResolvesTo summarize answers r) (rest : List Expr) :
    e.fill summarize (answers ++ rest) = (r, rest) := by
  induction e using Expr.induction generalizing answers r rest with
  | node e ih =>
    cases field : e.isField with
    | true =>
      cases e with
      | field =>
        obtain rfl := resolvesTo_field.1 h
        rfl
      | _ => contradiction
    | false =>
    cases ref : e.isRef with
    | true =>
      cases e with
      | ref =>
        obtain ⟨rfl, rfl⟩ := resolvesTo_ref.1 h
        rfl
      | _ => contradiction
    | false =>
    obtain ⟨resolved, parts, rfl, rfl, -⟩ := h.accepts field ref
    have each : List.Forall₂ (fun s a => ∀ rest, s.fill summarize (a.1 ++ rest) = (a.2, rest))
        e.sources resolved := by
      refine ((List.forall₂_and_left _ _).2 ⟨ih, parts⟩).imp ?_
      rintro s a ⟨ih, part⟩ rest
      exact ih part rest
    rw [fill_node field ref, fillList_eq each]

/-- A tree that resolves to another one over given answers is filled to it, and no answer is
left over. -/
lemma ResolvesTo.fill_eq (h : e.ResolvesTo summarize answers r) : e.fill summarize answers = (r, []) := by
  have filled := h.fill_append []
  rwa [List.append_nil] at filled

end BoundSql.Expr
