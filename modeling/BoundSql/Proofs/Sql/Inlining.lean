import BoundSql.Expr.Functions
import BoundSql.Proofs.Expr.Within
import BoundSql.Proofs.Sql.Congruence

/-!
# References and declared types in the text

Neither is seen in the text. A reference renders as the expression it stands for would in its place,
with the same parentheses or with the same failure (`render_dereferenced`). A declared type decides
only whether arithmetic has one and what a template that mentions it is filled with, so that trees
without such templates render alike when they are one tree without references and types
(`alike_render_alike`).
-/

namespace BoundSql

namespace CallHead

/-- The call without its declared type. -/
def untyped (head : CallHead) : CallHead :=
  { head with type := none }

end CallHead

namespace Expr

/-- The node without the type that is declared for it. -/
def untyped : Expr → Expr
  | .column tableAlias name _ => .column tableAlias name none
  | .literal value _ => .literal value none
  | .arith left op right _ => .arith left op right none
  | .call head args => .call head.untyped args
  | .aggregate kind head args distinct summary => .aggregate kind head.untyped args distinct summary
  | e => e

/-- The tree with the source of each reference in its place. -/
def dereferenced : Expr → Expr :=
  fold fun e sources =>
    match e, sources with
    | .ref .., [source] => source
    | e, sources => e.replaceSources sources

/-- The tree without references and without declared types. -/
def stripped : Expr → Expr :=
  fold fun e sources =>
    match e, sources with
    | .ref .., [source] | .typed .., [source] => source
    | e, sources => e.untyped.replaceSources sources

/-- No template mentions the type of the call. -/
def IgnoresType (d : Dialect) (n : Expr) : Prop :=
  ∀ head ∈ n.head?, .placeholder "db_type" ∉ Template.pieces (head.on d n.kind).template

instance (d : Dialect) (n : Expr) : Decidable (n.IgnoresType d) :=
  inferInstanceAs (Decidable (∀ head ∈ n.head?, _))

end Expr

variable {d : Dialect} {e : Expr} {ss : List Expr} {parts : List Fragment} {head : CallHead}

namespace Expr

/-- A reference is as much arithmetic as what it refers to. -/
lemma isArithmetic_dereferenced (e : Expr) : e.dereferenced.isArithmetic = e.isArithmetic := by
  induction e using Expr.induction with
  | node e ih =>
    cases e with
    | ref _ s | typed s _ => exact ih s List.mem_cons_self
    | _ => rfl

/-- References are left out source by source. -/
lemma dereferenced_eq (direct : e.isRef = false) :
    e.dereferenced = e.replaceSources (e.sources.map dereferenced) := by
  rw [dereferenced, fold_eq]
  cases e with
  | ref => cases direct
  | _ => rfl

/-- A reference has the type of what it refers to. -/
lemma type?_dereferenced (e : Expr) : e.dereferenced.type? = e.type? := by
  induction e using Expr.induction with
  | node e ih =>
    cases direct : e.isRef with
    | false =>
      rw [dereferenced_eq direct]
      apply type?_replaceSources
      apply List.forall₂_map_right_iff.2
      exact List.forall₂_same.2 fun s mem => (ih s mem).symm
    | true =>
      cases e with
      | ref _ s => exact ih s List.mem_cons_self
      | _ => cases direct

end Expr

/-- A reference is written as its source is. -/
lemma Renderer.render_dereferenced (d : Dialect) (e : Expr) :
    (standard d).render e.dereferenced = (standard d).render e := by
  induction e using Expr.induction with
  | node e ih =>
    cases direct : e.isRef with
    | false =>
      -- a node looks at the types of its sources, and at which of them are arithmetic
      have types : List.Forall₂ (fun s s' => s.type? = s'.type?) e.sources
          (e.sources.map Expr.dereferenced) := by
        apply List.forall₂_map_right_iff.2
        exact List.forall₂_same.2 fun s _ => s.type?_dereferenced.symm
      have shapes : List.Forall₂ (fun s s' => s.isArithmetic = s'.isArithmetic) e.sources
          (e.sources.map Expr.dereferenced) := by
        apply List.forall₂_map_right_iff.2
        exact List.forall₂_same.2 fun s _ => s.isArithmetic_dereferenced.symm
      rw [Expr.dereferenced_eq direct, render_eq,
        Expr.sources_replaceSources (List.length_map _), List.map_map,
        renderNode_replaceSources (by rw [List.length_map]) types shapes, render_eq]
      congr 1
      exact List.map_congr_left ih
    | true =>
      cases e with
      | ref name s =>
        have source : (standard d).render (.ref name s) = (standard d).render s := by
          rw [render_eq, renderNode_of_get?_none (by cases d <;> rfl)]
          rfl
        exact (ih s List.mem_cons_self).trans source.symm
      | _ => cases direct

namespace CallHead

/-- The type of a call may be dropped before or after the dialect's own template is taken. -/
lemma on_untyped (head : CallHead) (d : Dialect) (kind : String) :
    head.untyped.on d kind = (head.on d kind).untyped := by
  rw [on, on]
  split <;> rfl

/-- A call whose template does not mention the type is the same without one. -/
lemma assemble_untyped (unsaid : .placeholder "db_type" ∉ Template.pieces head.template) :
    head.untyped.assemble d parts = head.assemble d parts := by
  have filled (args : String) :
      Template.fill head.template ((Renderer.standard d).context head.untyped head.function args) =
        Template.fill head.template ((Renderer.standard d).context head head.function args) := by
    unfold Renderer.context
    cases head.type with
    | none => rfl
    | some type => exact (Template.fill_insert _ _ unsaid).symm
  rw [assemble, assemble]
  congr 1
  exact filled _

end CallHead

namespace Expr

/-- Without its type a node has the same sources. -/
lemma sources_untyped (e : Expr) : e.untyped.sources = e.sources := by
  cases e <;> rfl

/-- A node that does not mention its type is assembled alike without it. -/
lemma assemble_untyped (length : parts.length = e.sources.length) (ignores : e.IgnoresType d) :
    e.untyped.assemble d parts = e.assemble d parts := by
  cases e with
  | call head =>
    show (head.untyped.on d head.name).assemble d parts = (head.on d head.name).assemble d parts
    rw [CallHead.on_untyped]
    exact CallHead.assemble_untyped (ignores head rfl)
  | aggregate kind head =>
    show (head.untyped.on d kind.label).assemble d parts = (head.on d kind.label).assemble d parts
    rw [CallHead.on_untyped]
    exact CallHead.assemble_untyped (ignores head rfl)
  | arith =>
    obtain ⟨a, b, rfl⟩ := List.length_eq_two.1 length
    rfl
  | _ => rfl

/-- A node is put together the same over sources that are arithmetic where its own are. -/
lemma assemble_replaceSources (length : parts.length = e.sources.length)
    (shapes : List.Forall₂ (fun s s' => isArithmetic s = isArithmetic s') e.sources ss) :
    (e.replaceSources ss).assemble d parts = e.assemble d parts := by
  cases e with
  | ref | typed | sorted =>
    obtain _ | ⟨-, ⟨⟩⟩ := shapes
    obtain ⟨a, rfl⟩ := List.length_eq_one_iff.1 length
    rfl
  | compare =>
    obtain _ | ⟨-, _ | ⟨-, ⟨⟩⟩⟩ := shapes
    obtain ⟨a, b, rfl⟩ := List.length_eq_two.1 length
    rfl
  | arith =>
    obtain _ | ⟨left, _ | ⟨right, ⟨⟩⟩⟩ := shapes
    obtain ⟨a, b, rfl⟩ := List.length_eq_two.1 length
    simp only [replaceSources, assemble, operand, left, right]
  | _ => rfl

/-- Stripping references and types keeps arithmetic arithmetic. -/
lemma isArithmetic_stripped (e : Expr) : e.stripped.isArithmetic = e.isArithmetic := by
  induction e using Expr.induction with
  | node e ih =>
    cases e with
    | ref _ s | typed s _ => exact ih s List.mem_cons_self
    | _ => rfl

/-- References and declared types give way to their source, and other nodes keep their sources. -/
lemma stripped_eq (e : Expr) :
    (∃ s, e.sources = [s] ∧ e.stripped = s.stripped ∧ ∀ d a, e.assemble d [a] = a) ∨
      e.stripped = e.untyped.replaceSources (e.sources.map stripped) := by
  have eq : e.stripped = _ := fold_eq _ e
  cases e with
  | ref _ s | typed s _ => exact .inl ⟨s, rfl, rfl, fun _ _ => rfl⟩
  | _ => exact .inr eq

/-- What a tree is put together to depends neither on references nor on types that no template
mentions. -/
lemma fold_assemble_stripped (ignores : e.Throughout (IgnoresType d)) :
    e.stripped.fold (assemble d) = e.fold (assemble d) := by
  induction e using Expr.induction with
  | node e ih =>
    obtain ⟨root, below⟩ := throughout_iff.1 ignores
    -- parentheses depend on the shape of the sources, which stripping keeps
    rcases e.stripped_eq with ⟨s, single, eq, same⟩ | eq
    · have mem : s ∈ e.sources := by
        rw [single]
        exact List.mem_singleton_self s
      rw [eq, ih s mem (below s mem), fold_eq _ e, single]
      exact (same d _).symm
    · have same : e.untyped.sources = e.sources := e.sources_untyped
      have shapes : List.Forall₂ (fun s s' => isArithmetic s = isArithmetic s') e.untyped.sources
          (e.sources.map stripped) := by
        rw [same]
        apply List.forall₂_map_right_iff.2
        exact List.forall₂_same.2 fun s _ => s.isArithmetic_stripped.symm
      rw [eq, fold_eq, sources_replaceSources shapes.length_eq.symm, List.map_map,
        assemble_replaceSources (by rw [List.length_map, same]) shapes,
        assemble_untyped (List.length_map _) root, fold_eq _ e]
      congr 1
      exact List.map_congr_left fun s mem => ih s mem (below s mem)

end Expr

namespace Renderer

/-- Two trees that are one without references and declared types render to the same text and
parameters, if they render and no template mentions a type. Two trees that are one without references
render the same in any case, with the same parentheses or to the same failure. -/
theorem alike_render_alike (d : Dialect) :
    (∀ e e' a a', e.stripped = e'.stripped → e.Throughout (Expr.IgnoresType d) →
      e'.Throughout (Expr.IgnoresType d) → (standard d).render e = .ok a →
      (standard d).render e' = .ok a' → a = a') ∧
    ∀ e e', e.dereferenced = e'.dereferenced → (standard d).render e = (standard d).render e' := by
  constructor
  · intro e e' a a' alike ignores ignores' run run'
    obtain ⟨-, rfl⟩ := render_eq_ok_iff.1 run
    obtain ⟨-, rfl⟩ := render_eq_ok_iff.1 run'
    calc e.fold (Expr.assemble d)
      _ = e.stripped.fold (Expr.assemble d) := (Expr.fold_assemble_stripped ignores).symm
      _ = e'.stripped.fold (Expr.assemble d) := by rw [alike]
      _ = e'.fold (Expr.assemble d) := Expr.fold_assemble_stripped ignores'
  · intro e e' same
    rw [← render_dereferenced d e, same, render_dereferenced d e']

/-- The sum of two columns, with the type of the columns if it is known. -/
def payAndBonus (type : Option SqlType) : Expr :=
  .arith (.column "T" "pay" type) .add (.column "T" "bonus" type) none

/-- A call over a column. -/
def absolutePay (type : Option SqlType) : Expr :=
  .call { CallHead.ofFunction "ABS" with type } [.column "T" "pay" none]

/-- A sum in a product keeps its parentheses below a reference and a declared type, and the product
is the same without any of them. -/
theorem alike_render_alike_product :
    let wrapped := Expr.arith (.typed (.ref "total" (payAndBonus (some .integer))) .integer) .mul
      (absolutePay (some .integer)) none
    let direct := Expr.arith (.typed (payAndBonus (some .integer)) .integer) .mul
      (absolutePay (some .integer)) none
    let plain := Expr.arith (payAndBonus none) .mul (absolutePay none) none
    ∃ a a', (standard .sqlite).render wrapped = .ok a ∧ (standard .sqlite).render plain = .ok a' ∧
      a.sql = "(\"T\".\"pay\" + \"T\".\"bonus\") * ABS(\"T\".\"pay\")" ∧ a = a' ∧
      (standard .sqlite).render wrapped = (standard .sqlite).render direct := by
  intro wrapped direct plain
  have ⟨alike, same⟩ := alike_render_alike .sqlite
  exact ⟨_, _, rfl, rfl, rfl, alike wrapped plain _ _ rfl (by decide) (by decide) rfl rfl,
    same wrapped direct rfl⟩

end Renderer

end BoundSql
