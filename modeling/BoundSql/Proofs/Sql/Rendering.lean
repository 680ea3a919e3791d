import BoundSql.Proofs.Expr.Within
import BoundSql.Proofs.Sql.Calls

/-!
# Expressions that are written well

A tree renders to a fragment with as many markers as parameters when its calls do. The induction is
on the tree: `marked_renderGeneric`, `marked_renderCustom` and `marked_renderTemplate` are the step
for the rules that a dialect can have for a node, and `Overrides.allowed_of_standard` says which of
these the dialects come with.
-/

namespace BoundSql

/-- The texts of calls are plain, their templates have one place for arguments if there are any, and
a call for the time, whose template a dialect may replace by one without a place, has none. -/
def Expr.PlainCalls (strict : Bool) : Expr → Prop
  | .call head args =>
    (∀ text ∈ head.texts, Plain strict text) ∧ (Template.hasPlace head.template ∨ args = []) ∧
      (head.name = "Now" → args = [])
  | .aggregate _ head args _ _ =>
    (∀ text ∈ head.texts, Plain strict text) ∧ (Template.hasPlace head.template ∨ args = [])
  | _ => True

instance (strict : Bool) : DecidablePred (Expr.PlainCalls strict) := fun e => by
  cases e <;> unfold Expr.PlainCalls <;> infer_instance

/-- Overrides whose texts are plain. A template without a place is only for the time. -/
def Override.Allowed (kind : String) : Override → Prop
  | .template function replaced joiner =>
    (∀ text ∈ function.toList ++ replaced.toList ++ joiner.toList, Plain true text) ∧
      ∀ text ∈ replaced.toList, Template.hasPlace text ∨ kind = "Now"
  | .unsupported => True
  | .custom (.edited _) => False
  | .custom _ => True

instance (kind : String) : DecidablePred (Override.Allowed kind)
  | .template _ _ _ => inferInstanceAs (Decidable (_ ∧ _))
  | .unsupported => .isTrue trivial
  | .custom (.edited _) => .isFalse id
  | .custom .powerAsCall | .custom .nullsAsKey => .isTrue trivial

/-- The overrides of all dialects are such. -/
lemma Overrides.allowed_of_standard {d : Dialect} {kind : String} {o : Override}
    (h : Overrides.standard.get? d kind = some o) : o.Allowed kind := by
  have all : ∀ entry ∈ standard.entries, entry.2.Allowed entry.1.2 := by decide
  obtain ⟨entry, found, rfl⟩ := Option.map_eq_some_iff.1 h
  have key := List.find?_some found
  have kind_eq : entry.1.2 = kind := by rw [eq_of_beq key]
  rw [← kind_eq]
  exact all entry (List.mem_of_find?_eq_some found)

variable {r : Renderer} {d : Dialect} {strict : Bool} {e : Expr} {sources : List (Except Error Fragment)}
  {a : Fragment}

/-- The arithmetic operators are plain text. -/
lemma plain_symbol (op : ArithOp) (strict : Bool) : Plain strict op.symbol :=
  plain_of_strict (by cases op <;> decide)

/-- The comparisons are plain text. -/
lemma plain_comparison (op : CompareOp) (strict : Bool) : Plain strict op.symbol :=
  plain_of_strict (by cases op <;> decide)

/-- A sort key has the markers of its source. -/
lemma Fragment.Marked.sorted (h : a.Marked d strict) (direction : SortDirection) :
    (a.mapSql (· ++ " " ++ direction.keyword)).Marked d strict := by
  have keyword : Plain strict direction.keyword := plain_of_strict (by cases direction <;> decide)
  exact (h.extend plain_blank.written).extend keyword.written

/-- A node without arguments has no rendered ones. -/
lemma eq_nil_of_no_args {args : List Expr} (length : sources.length = args.length)
    (none : args = []) : sources = [] := by
  rw [none] at length
  exact List.eq_nil_of_length_eq_zero length

/-- A call with its own texts has the markers of its arguments. -/
lemma marked_ownCall {head : CallHead} (texts : ∀ text ∈ head.texts, Plain strict text)
    (place : Template.hasPlace head.template ∨ sources = [])
    (marked : ∀ s ∈ sources, ∀ b, s = .ok b → b.Marked d strict)
    (run : r.renderCall head head.function head.template head.joiner sources = .ok a) :
    a.Marked d strict := by
  refine marked_renderCall (fun text mem => texts text ?_) (fun name eq => texts name ?_)
    (texts _ ?_) (texts _ ?_) place marked run <;> simp [CallHead.texts, *]

/-- A predicate has the markers of its parts. -/
lemma marked_renderLogic {connective : Connective} {negated : Bool}
    (marked : ∀ s ∈ sources, ∀ b, s = .ok b → b.Marked d strict)
    (run : Renderer.renderLogic connective negated sources = .ok a) : a.Marked d strict := by
  obtain ⟨parts, parts_ok, run⟩ := except_bind_ok run
  cases run
  have keyword : Plain strict (" " ++ connective.keyword ++ " ") :=
    plain_of_strict (by cases connective <;> decide)
  have always : Plain strict "1 = 1" := plain_of_strict (by decide)
  have never : Plain strict "1 = 0" := plain_of_strict (by decide)
  have not : Plain strict "NOT " := plain_of_strict (by decide)
  have wrapped {body : Fragment} {count : Nat} (h : body.Marked d strict) :
      (if negated then body.parenthesized.mapSql ("NOT " ++ ·)
        else if 1 < count then body.parenthesized else body).Marked d strict := by
    split
    · exact h.parenthesized.prepend not.written
    · split
      · exact h.parenthesized
      · exact h
  refine wrapped ?_
  split
  · exact always.written
  · exact never.written
  · apply Fragment.marked_join keyword
    intro b mem
    obtain ⟨s, source, ok⟩ := except_mem_of_mapM_ok parts_ok mem
    exact marked s source b ok

/-- Each node is written well when its sources are. -/
lemma marked_renderGeneric (calls : e.PlainCalls strict)
    (length : sources.length = e.sources.length)
    (marked : ∀ s ∈ sources, ∀ b, s = .ok b → b.Marked r.dialect strict)
    (run : r.renderGeneric e sources = .ok a) : a.Marked r.dialect strict := by
  cases e with
  | field => cases run
  | column tableAlias name type =>
    cases run
    have dot : Plain strict "." := plain_of_strict (by decide)
    exact ((written_quoteName _ strict tableAlias).append dot.written).append
      (written_quoteName _ strict name)
  | literal value type =>
    cases run
    exact Fragment.marked_bind _ strict value
  | star =>
    cases run
    have star : Plain strict "*" := plain_of_strict (by decide)
    exact star.written
  | ref | typed =>
    -- references and declared types are written as what they stand for
    obtain ⟨s, rfl⟩ := List.length_eq_one_iff.1 length
    exact marked s (List.mem_singleton_self s) a run
  | arith left op right type =>
    obtain ⟨s, t, rfl⟩ := List.length_eq_two.1 length
    obtain ⟨-, -, run⟩ := except_bind_ok run
    obtain ⟨b, first, run⟩ := except_bind_ok run
    obtain ⟨c, second, run⟩ := except_bind_ok run
    cases run
    have operand {e : Expr} {x : Fragment} (h : x.Marked r.dialect strict) :
        (if e.isArithmetic then x.parenthesized else x).Marked r.dialect strict := by
      split
      · exact h.parenthesized
      · exact h
    exact (operand (marked s List.mem_cons_self b first)).between
      (operand (marked t (by simp) c second)) (plain_symbol op strict)
  | call head args =>
    obtain ⟨texts, place, -⟩ := calls
    exact marked_ownCall texts (place.imp_right (eq_nil_of_no_args length)) marked run
  | aggregate kind head args =>
    obtain ⟨texts, place⟩ := calls
    exact marked_ownCall texts (place.imp_right (eq_nil_of_no_args length)) marked run
  | sorted source direction nulls =>
    obtain ⟨s, rfl⟩ := List.length_eq_one_iff.1 length
    obtain ⟨b, first, run⟩ := except_bind_ok run
    cases run
    have placement : Plain strict nulls.keywords := plain_of_strict (by cases nulls <;> decide)
    exact ((marked s (List.mem_singleton_self s) b first).sorted direction).extend
      placement.written
  | compare left op right =>
    obtain ⟨s, t, rfl⟩ := List.length_eq_two.1 length
    obtain ⟨b, first, run⟩ := except_bind_ok run
    obtain ⟨c, second, run⟩ := except_bind_ok run
    cases run
    exact (marked s List.mem_cons_self b first).between (marked t (by simp) c second)
      (plain_comparison op strict)
  | logic connective parts negated => exact marked_renderLogic marked run

/-- Nodes under the rules of the dialects are written well when their sources are. -/
lemma marked_renderCustom {rule : CustomRule} (allowed : (Override.custom rule).Allowed e.kind)
    (calls : e.PlainCalls strict) (length : sources.length = e.sources.length)
    (marked : ∀ s ∈ sources, ∀ b, s = .ok b → b.Marked r.dialect strict)
    (run : r.renderCustom rule e sources = .ok a) : a.Marked r.dialect strict := by
  unfold Renderer.renderCustom at run
  split at run
  · cases allowed
  · rename_i s t
    obtain ⟨-, -, run⟩ := except_bind_ok run
    obtain ⟨b, first, run⟩ := except_bind_ok run
    obtain ⟨c, second, run⟩ := except_bind_ok run
    cases run
    have power : Plain strict "POWER" := plain_of_strict (by decide)
    have args := (marked s List.mem_cons_self b first).pair (marked t (by simp) c second) plain_comma
    exact args.parenthesized.prepend power.written
  · rename_i direction nulls s
    obtain ⟨key, ok, run⟩ := except_bind_ok run
    cases run
    have isNull : Plain strict " IS NULL" := plain_of_strict (by decide)
    have isNotNull : Plain strict " IS NOT NULL" := plain_of_strict (by decide)
    have key := marked s (List.mem_singleton_self s) key ok
    have sorted := key.sorted direction
    cases nulls with
    | unspecified => exact sorted
    | last => exact (key.extend isNull.written).pair sorted plain_comma
    | first => exact (key.extend isNotNull.written).pair sorted plain_comma
  · exact marked_renderGeneric calls length marked run

/-- A call with other texts has the markers of its arguments, and other nodes are written as ever. -/
lemma marked_renderTemplate {function replaced joiner : Option String}
    (allowed : (Override.template function replaced joiner).Allowed e.kind)
    (calls : e.PlainCalls strict) (length : sources.length = e.sources.length)
    (marked : ∀ s ∈ sources, ∀ b, s = .ok b → b.Marked r.dialect strict)
    (run : r.renderTemplate function replaced joiner e sources = .ok a) :
    a.Marked r.dialect strict := by
  obtain ⟨texts, place⟩ := allowed
  have call (head : CallHead) (own : ∀ text ∈ head.texts, Plain strict text)
      (place : Template.hasPlace (replaced.getD head.template) ∨ sources = [])
      (run : r.renderCall head (function <|> head.function) (replaced.getD head.template)
        (joiner.getD head.joiner) sources = .ok a) : a.Marked r.dialect strict := by
    refine marked_renderCall (fun text mem => own text ?_) (fun name eq => ?_) ?_ ?_ place marked run
    · simp [CallHead.texts, mem]
    · cases function with
      | some f =>
        cases eq
        exact (texts name (by simp)).relax strict
      | none => exact own name (by simp [CallHead.texts, show head.function = some name from eq])
    · cases replaced with
      | some t => exact (texts t (by simp)).relax strict
      | none => exact own _ (by simp [CallHead.texts])
    · cases joiner with
      | some t => exact (texts t (by simp)).relax strict
      | none => exact own _ (by simp [CallHead.texts])
  unfold Renderer.renderTemplate at run
  cases e with
  | call head args =>
    obtain ⟨own, fits, now⟩ := calls
    refine call head own ?_ run
    cases replaced with
    | some t => exact (place t (by simp)).imp_right fun isNow => eq_nil_of_no_args length (now isNow)
    | none => exact fits.imp_right (eq_nil_of_no_args length)
  | aggregate kind head args =>
    obtain ⟨own, fits⟩ := calls
    refine call head own ?_ run
    cases replaced with
    | some t =>
      -- only the time has a template without a place, and it is no aggregate
      rcases place t (by simp) with place | isNow
      · exact .inl place
      · have other : kind.label ≠ "Now" := by cases kind <;> decide
        exact absurd isNow other
    | none => exact fits.imp_right (eq_nil_of_no_args length)
  | _ => exact marked_renderGeneric calls length marked run

/-- Each node is written well when its sources are, in every dialect. -/
lemma marked_renderNode (calls : e.PlainCalls strict)
    (length : sources.length = e.sources.length)
    (marked : ∀ s ∈ sources, ∀ b, s = .ok b → b.Marked d strict)
    (run : (Renderer.standard d).renderNode e sources = .ok a) : a.Marked d strict := by
  rw [Renderer.renderNode] at run
  split at run
  · exact marked_renderGeneric calls length marked run
  · cases run
  · rename_i rule found
    exact marked_renderCustom (Overrides.allowed_of_standard found) calls length marked run
  · rename_i found
    exact marked_renderTemplate (Overrides.allowed_of_standard found) calls length marked run

/-- A tree whose calls are plain renders to as many markers as parameters. -/
theorem marked_render (calls : e.Throughout (Expr.PlainCalls strict))
    (run : (Renderer.standard d).render e = .ok a) : a.Marked d strict := by
  induction e using Expr.induction generalizing a with
  | node e ih =>
    rw [Renderer.render_eq] at run
    refine marked_renderNode (calls e .root) (List.length_map _) (fun s mem b ok => ?_) run
    obtain ⟨source, inside, rfl⟩ := List.mem_map.1 mem
    exact ih source inside (calls.within (.of_mem inside)) ok

end BoundSql
