import BoundSql.Proofs.Expr.Sources
import BoundSql.Proofs.Expr.Typing
import BoundSql.Proofs.Lifting
import BoundSql.Proofs.Sql.Assembly

/-!
# What a rendered node depends on

A node sees of its sources what they render to, of what types they are, and which of them are
arithmetic; over sources that are alike in these it is written the same (`renderNode_replaceSources`).
What it makes of the fragments of its sources is a congruence: a relation between fragments that goes
through rows and through changes of the text goes through every node (`Fragment.Congruence.renderNode`).
-/

namespace BoundSql

variable {d : Dialect} {e e' : Expr} {es : List Expr} {head : CallHead}
  {parts parts' : List (Except Error Fragment)} {Q : Fragment → Fragment → Prop}

namespace Renderer

/-- A call is written from its head and its kind. -/
lemma renderNode_eq_of_head (isCall : e.head? = some head) (isCall' : e'.head? = some head)
    (kind : e.kind = e'.kind) :
    (standard d).renderNode e parts = (standard d).renderNode e' parts := by
  by_cases found : Overrides.standard.get? d e.kind = some .unsupported
  · rw [renderNode_of_get?_unsupported found, renderNode_of_get?_unsupported (kind ▸ found), kind]
  · rw [renderNode_of_head isCall found, renderNode_of_head isCall' (kind ▸ found), kind]

/-- A node is written the same over sources that are of the same types, and arithmetic where its own
are. -/
lemma renderNode_replaceSources (length : parts.length = e.sources.length)
    (types : List.Forall₂ (fun s s' => s.type? = s'.type?) e.sources es)
    (shapes : List.Forall₂ (fun s s' => s.isArithmetic = s'.isArithmetic) e.sources es) :
    (standard d).renderNode (e.replaceSources es) parts = (standard d).renderNode e parts := by
  have type := Expr.type?_replaceSources types
  cases e with
  | field | column | literal | star => rfl
  | call | aggregate =>
    -- neither looks at its own arguments, only at what they are written as
    exact renderNode_eq_of_head rfl rfl rfl
  | logic => cases d <;> rfl
  | ref | typed | sorted =>
    obtain _ | ⟨-, ⟨⟩⟩ := types
    obtain ⟨x, rfl⟩ := List.length_eq_one_iff.1 length
    cases d <;> rfl
  | compare =>
    obtain _ | ⟨-, _ | ⟨-, ⟨⟩⟩⟩ := types
    obtain ⟨x, y, rfl⟩ := List.length_eq_two.1 length
    cases d <;> rfl
  | arith left op right declared =>
    obtain _ | @⟨_, left', _, _, first, _ | @⟨_, right', _, _, second, ⟨⟩⟩⟩ := shapes
    obtain ⟨x, y, rfl⟩ := List.length_eq_two.1 length
    rw [Expr.replaceSources] at type ⊢
    have generic : (standard d).renderGeneric (.arith left' op right' declared) [x, y] =
        (standard d).renderGeneric (.arith left op right declared) [x, y] := by
      simp only [renderGeneric, type, first, second]
    cases d with
    | postgres => rw [renderNode_of_get?_none rfl, renderNode_of_get?_none rfl, generic]
    | sqlite | mysql =>
      rw [renderNode_of_get?_custom rfl, renderNode_of_get?_custom rfl]
      cases op with
      | pow => simp only [renderCustom, type]
      | _ => exact generic

end Renderer

/-- A piece has a text over two contexts or over none, when they have the same keys. -/
lemma Template.Piece.text_alike {context context' : Dict String}
    (known : ∀ key, (context.get? key).isSome = (context'.get? key).isSome) (template : String)
    (piece : Piece) :
    SameOutcome Eq (fun _ _ => True) (piece.text template context) (piece.text template context') := by
  cases piece with
  | char => exact .ok trivial
  | unclosed => exact .error rfl
  | placeholder key =>
    have known := known key
    unfold text
    dsimp only
    generalize context.get? key = value, context'.get? key = value' at known
    cases value <;> cases value'
    · exact .error rfl
    · cases known
    · cases known
    · exact .ok trivial

/-- Whether a template can be filled does not depend on what the arguments are written as. -/
lemma Renderer.render_context_alike (r : Renderer) (head : CallHead) (function : Option String)
    (template args args' : String) :
    SameOutcome Eq (fun _ _ => True) (Template.render template (r.context head function args))
      (Template.render template (r.context head function args')) := by
  have known (key : String) : ((r.context head function args).get? key).isSome =
      ((r.context head function args').get? key).isSome := by
    unfold context
    cases head.type <;> simp only [Dict.get?_insert] <;> split_ifs <;> rfl
  have pieces : List.Forall₂ Eq (Template.pieces template) (Template.pieces template) :=
    List.forall₂_same.2 fun _ _ => rfl
  unfold Template.render
  refine ((lifting_sameOutcome Eq).mapM (Q := fun _ _ => True) ?_ pieces).bind ?_
  · rintro piece _ rfl
    exact piece.text_alike known template
  · exact fun _ => .ok trivial

namespace Fragment

/-- A relation that goes through rows, and through changes of the text that succeed or fail whatever the
text is. -/
structure Congruence (Q : Fragment → Fragment → Prop) : Prop where
  join : ∀ (separator : String) {as bs : List Fragment}, List.Forall₂ Q as bs →
    Q (join separator as) (join separator bs)
  fill : ∀ {f : String → Except Error String} {a b : Fragment},
    (∀ s t, SameOutcome Eq (fun _ _ => True) (f s) (f t)) → Q a b →
      SameOutcome Eq Q (do return ⟨← f a.sql, a.params⟩) (do return ⟨← f b.sql, b.params⟩)

namespace Congruence

variable (keeps : Congruence Q) {a a' b b' : Fragment}
include keeps

/-- A change of the text goes along with the relation. -/
lemma mapSql (h : Q a b) (f : String → String) : Q (a.mapSql f) (b.mapSql f) :=
  (keeps.fill (f := fun sql => .ok (f sql)) (fun _ _ => .ok trivial) h).of_ok

/-- A text without parameters is related to itself. -/
lemma raw (sql : String) : Q (raw sql) (raw sql) :=
  keeps.mapSql (keeps.join "" .nil) fun _ => sql

/-- Parentheses go along with the relation. -/
lemma parenthesized (h : Q a b) : Q a.parenthesized b.parenthesized :=
  keeps.mapSql h _

/-- An operator between related operands goes along with the relation. -/
lemma between (h : Q a b) (operator : String) (h' : Q a' b') :
    Q (a.between operator a') (b.between operator b') :=
  keeps.join _ (.cons h (.cons h' .nil))

/-- Calls over related arguments are related, or both templates cannot be filled. -/
lemma renderCall (r : Renderer) (head : CallHead) (function : Option String)
    (template joiner : String) (h : List.Forall₂ (SameOutcome Eq Q) parts parts') :
    SameOutcome Eq Q (r.renderCall head function template joiner parts)
      (r.renderCall head function template joiner parts') := by
  refine ((lifting_sameOutcome Eq).mapM (fun part => part) h).bind fun args => ?_
  exact keeps.fill (r.render_context_alike head function template) (keeps.join joiner args)

/-- A connective over parts that render alike renders alike. -/
lemma renderLogic (connective : Connective) (negated : Bool)
    (h : List.Forall₂ (SameOutcome Eq Q) parts parts') :
    SameOutcome Eq Q (Renderer.renderLogic connective negated parts)
      (Renderer.renderLogic connective negated parts') := by
  refine ((lifting_sameOutcome Eq).mapM (fun part => part) h).bind fun {as bs} args => .ok ?_
  rw [args.length_eq]
  have wrapped {body body' : Fragment} (count : Nat) (h : Q body body') :
      Q (if negated then body.parenthesized.mapSql ("NOT " ++ ·)
        else if 1 < count then body.parenthesized else body)
      (if negated then body'.parenthesized.mapSql ("NOT " ++ ·)
        else if 1 < count then body'.parenthesized else body') := by
    split
    · exact keeps.mapSql (keeps.parenthesized h) _
    · split
      · exact keeps.parenthesized h
      · exact h
  apply wrapped
  cases args with
  | nil => cases connective <;> exact keeps.raw _
  | cons first rest => exact keeps.join _ (.cons first rest)

omit keeps in
/-- Arithmetic asks for its type, which is the same on both sides, and for its operands then. -/
lemma typed_pair {type : Except Error (Option SqlType)} {x x' y y' : Except Error Fragment}
    {f g : Fragment → Fragment → Fragment} (first : SameOutcome Eq Q x x')
    (second : SameOutcome Eq Q y y') (operator : ∀ {a a' b b'}, Q a a' → Q b b' → Q (f a b) (g a' b')) :
    SameOutcome Eq Q (do discard type; return f (← x) (← y))
      (do discard type; return g (← x') (← y')) := by
  have same : SameOutcome Eq Eq (discard type) (discard type) := .refl (fun _ => rfl) (fun _ => rfl) _
  refine same.bind fun _ => ?_
  refine first.bind fun a => ?_
  exact second.bind fun b => .ok (operator a b)

variable (bound : ∀ v type, e = .literal v type → Q (.bind v) (.bind v))
  (length : parts.length = e.sources.length) (h : List.Forall₂ (SameOutcome Eq Q) parts parts')
include bound length h

/-- Sources that render alike render alike under one node, by its generic rule. -/
lemma renderGeneric (r : Renderer) :
    SameOutcome Eq Q (r.renderGeneric e parts) (r.renderGeneric e parts') := by
  cases e with
  | field => exact .error rfl
  | column | star => exact .ok (keeps.raw _)
  | literal v type => exact .ok (bound v type rfl)
  | ref | typed =>
    obtain ⟨x, rfl⟩ := List.length_eq_one_iff.1 length
    obtain _ | ⟨first, ⟨⟩⟩ := h
    exact first
  | arith left op right type =>
    obtain ⟨x, y, rfl⟩ := List.length_eq_two.1 length
    obtain _ | ⟨first, _ | ⟨second, ⟨⟩⟩⟩ := h
    have operand (e : Expr) {a b : Fragment} (h : Q a b) :
        Q (if e.isArithmetic then a.parenthesized else a)
          (if e.isArithmetic then b.parenthesized else b) := by
      split
      · exact keeps.parenthesized h
      · exact h
    exact typed_pair first second fun a b => keeps.between (operand left a) _ (operand right b)
  | call | aggregate => exact keeps.renderCall r _ _ _ _ h
  | sorted =>
    obtain ⟨x, rfl⟩ := List.length_eq_one_iff.1 length
    obtain _ | ⟨first, ⟨⟩⟩ := h
    exact first.bind fun a => .ok (keeps.mapSql a _)
  | compare =>
    obtain ⟨x, y, rfl⟩ := List.length_eq_two.1 length
    obtain _ | ⟨first, _ | ⟨second, ⟨⟩⟩⟩ := h
    refine first.bind fun a => ?_
    exact second.bind fun b => .ok (keeps.between a _ b)
  | logic => exact keeps.renderLogic _ _ h

/-- Sources that render alike render alike under one node, by a rule that is allowed for it. -/
lemma renderCustom (r : Renderer) {rule : CustomRule}
    (allowed : (Override.custom rule).Allowed e.kind) :
    SameOutcome Eq Q (r.renderCustom rule e parts) (r.renderCustom rule e parts') := by
  have generic := keeps.renderGeneric bound length h r
  cases rule with
  | edited => cases allowed
  | powerAsCall =>
    cases e with
    | arith left op right type =>
      obtain ⟨x, y, rfl⟩ := List.length_eq_two.1 length
      obtain _ | ⟨first, _ | ⟨second, ⟨⟩⟩⟩ := h
      cases op with
      | pow =>
        exact typed_pair first second fun a b =>
          keeps.mapSql (keeps.parenthesized (keeps.join _ (.cons a (.cons b .nil)))) _
      | _ => exact generic
    | _ => exact generic
  | nullsAsKey =>
    cases e with
    | sorted s direction nulls =>
      obtain ⟨x, rfl⟩ := List.length_eq_one_iff.1 length
      obtain _ | ⟨first, ⟨⟩⟩ := h
      refine first.bind fun key => .ok ?_
      have sorted := keeps.mapSql key (· ++ " " ++ direction.keyword)
      cases nulls with
      | unspecified => exact sorted
      | first | last => exact keeps.join _ (.cons (keeps.mapSql key _) (.cons sorted .nil))
    | _ => exact generic

/-- Sources that render alike render alike under one node, by a template. -/
lemma renderTemplate (r : Renderer) (function template joiner : Option String) :
    SameOutcome Eq Q (r.renderTemplate function template joiner e parts)
      (r.renderTemplate function template joiner e parts') := by
  have generic := keeps.renderGeneric bound length h r
  cases e with
  | call | aggregate => exact keeps.renderCall r _ _ _ _ h
  | _ => exact generic

/-- A node makes related fragments of related ones, and fails over both or over none. -/
lemma renderNode :
    SameOutcome Eq Q ((Renderer.standard d).renderNode e parts)
      ((Renderer.standard d).renderNode e parts') := by
  rw [Renderer.renderNode, Renderer.renderNode]
  split
  · exact keeps.renderGeneric bound length h _
  · exact .error rfl
  · rename_i found
    exact keeps.renderCustom bound length h _ (Overrides.allowed_of_standard found)
  · exact keeps.renderTemplate bound length h _ _ _ _

end Congruence

end Fragment

end BoundSql
