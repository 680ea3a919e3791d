import BoundSql.Proofs.Sql.Filling
import BoundSql.Proofs.Sql.Written

/-!
# Calls that are written well

A template puts the arguments of a call where its placeholder for them stands. When its other texts
are plain and it has the placeholder once, or there is nothing to put there, the call has the markers
of its arguments (`marked_renderCall`).
-/

namespace BoundSql

/-- Besides the arguments, the texts that a template may mention are plain. -/
def PlainBesides (strict : Bool) (context : Dict String) : Prop :=
  ∀ key text, key ≠ "expressions" → context.get? key = some text → Plain strict text

/-- Another plain text, or other arguments. -/
lemma PlainBesides.insert {strict : Bool} {context : Dict String} (h : PlainBesides strict context)
    (key text : String) (plain : key ≠ "expressions" → Plain strict text) :
    PlainBesides strict (context.insert key text) := by
  intro key' text' other found
  rw [Dict.get?_insert] at found
  split at found
  · rename_i same
    cases found
    exact plain (same ▸ other)
  · exact h key' text' other found

namespace Template

variable {d : Dialect} {strict : Bool} {template : String} {context : Dict String}

/-- Pieces have the markers of the arguments as often as they have the placeholder for these. -/
lemma written_pieces {args : String} {n : Nat} (written : Written d strict n args)
    (holds : context.get? "expressions" = some args)
    (others : PlainBesides strict context)
    {pieces : List Piece} (plain : ∀ c, .char c ∈ pieces → c ∉ reserved strict)
    {texts : List String}
    (run : List.Forall₂ (fun piece text => Piece.text template context piece = .ok text) pieces texts) :
    Written d strict (pieces.count (.placeholder "expressions") * n) (String.join texts) := by
  induction run with
  | nil =>
    rw [List.count_nil, Nat.zero_mul, String.join_nil]
    exact plain_empty.written
  | @cons piece text pieces texts first rest ih =>
    have later := ih fun c mem => plain c (List.mem_cons_of_mem _ mem)
    rw [String.join_cons]
    cases piece with
    | char c =>
      cases first
      have single : Plain strict (String.singleton c) := by
        intro c' mem
        rw [String.toList_singleton, List.mem_singleton] at mem
        rw [mem]
        exact plain c List.mem_cons_self
      have both := single.written.append later
      rw [List.count_cons_of_ne (by simp)]
      rwa [Nat.zero_add] at both
    | placeholder key =>
      rw [Piece.text] at first
      -- only the place for the arguments has markers
      by_cases eq : key = "expressions"
      · rw [eq, holds] at first
        cases first
        have both := written.append later
        rw [eq, List.count_cons_self, Nat.add_mul, Nat.one_mul, Nat.add_comm]
        exact both
      · split at first
        · rename_i found
          cases first
          have both := (others key text eq found).written.append later
          rw [List.count_cons_of_ne (by simpa using eq)]
          rwa [Nat.zero_add] at both
        · cases first
    | unclosed => cases first

end Template

/-- The texts of a call, its name and declarations apart. -/
def CallHead.texts (head : CallHead) : List String :=
  head.function.toList ++ [head.template, head.joiner] ++ head.extra.values

/-- The template has a place for the arguments, and only one. -/
def Template.hasPlace (template : String) : Prop :=
  (Template.pieces template).count (.placeholder "expressions") = 1

instance (template : String) : Decidable (Template.hasPlace template) :=
  inferInstanceAs (Decidable (_ = 1))

variable {d : Dialect} {strict : Bool}

/-- The names of types are plain text. -/
lemma plain_castType (d : Dialect) (strict : Bool) (t : SqlType) :
    Plain strict (d.castType t) :=
  plain_of_strict (by cases d <;> cases t <;> decide)

/-- What the template of a call may mention besides its arguments is plain. -/
lemma plain_context {r : Renderer} {head : CallHead} {function : Option String} {args : String}
    (extra : ∀ text ∈ head.extra.values, Plain strict text)
    (plain : ∀ name, function = some name → Plain strict name) :
    PlainBesides strict (r.context head function args) := by
  have own : PlainBesides strict head.extra :=
    fun _ text _ found => extra text (Dict.mem_values_of_get? found)
  cases function with
  | some name =>
    have named := (own.insert "function" name fun _ => plain name rfl).insert "expressions" args
      fun other => absurd rfl other
    unfold Renderer.context
    rcases head.type with _ | type
    · exact named
    · exact named.insert "db_type" _ fun _ => plain_castType _ _ type
  | none =>
    have unnamed := own.insert "expressions" args fun other => absurd rfl other
    unfold Renderer.context
    rcases head.type with _ | type
    · exact unnamed
    · exact unnamed.insert "db_type" _ fun _ => plain_castType _ _ type

/-- The placeholder for the arguments stands for them, whatever else a call provides. -/
lemma get?_context {r : Renderer} {head : CallHead} {function : Option String} {args : String} :
    (r.context head function args).get? "expressions" = some args := by
  unfold Renderer.context
  dsimp only
  split
  · rw [Dict.get?_insert, if_neg (by decide), Dict.get?_insert, if_pos rfl]
  · rw [Dict.get?_insert, if_pos rfl]

/-- A call with plain texts has the markers of its arguments. -/
lemma marked_renderCall {r : Renderer} {head : CallHead} {function : Option String}
    {template joiner : String} {args : List (Except Error Fragment)} {a : Fragment}
    (extra : ∀ text ∈ head.extra.values, Plain strict text)
    (name : ∀ name, function = some name → Plain strict name)
    (templatePlain : Plain strict template) (joinerPlain : Plain strict joiner)
    (place : Template.hasPlace template ∨ args = [])
    (marked : ∀ arg ∈ args, ∀ b, arg = .ok b → b.Marked d strict)
    (run : r.renderCall head function template joiner args = .ok a) : a.Marked d strict := by
  obtain ⟨parts, parts_ok, run⟩ := except_bind_ok run
  obtain ⟨sql, sql_ok, run⟩ := except_bind_ok run
  cases run
  obtain ⟨texts, texts_ok, render⟩ := except_bind_ok sql_ok
  cases render
  have joined : (Fragment.join joiner parts).Marked d strict := by
    apply Fragment.marked_join joinerPlain
    intro b mem
    obtain ⟨arg, memArg, ok⟩ := except_mem_of_mapM_ok parts_ok mem
    exact marked arg memArg b ok
  have chars (c : Char) (mem : .char c ∈ Template.pieces template) : c ∉ reserved strict :=
    templatePlain c (Template.mem_of_char_mem_scan mem)
  have written := Template.written_pieces joined get?_context (plain_context extra name) chars
    (except_mapM_ok texts_ok)
  -- without arguments there are no markers to count, wherever the places are
  rcases place with once | none
  · rw [Template.hasPlace] at once
    rw [once, Nat.one_mul] at written
    exact written
  · subst none
    cases parts_ok
    exact written

end BoundSql
