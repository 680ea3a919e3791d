import BoundSql.Proofs.Schema.Catalog
import BoundSql.Proofs.Select.Stability

/-!
# Names of computed columns

A path that is the name of a computed column stands for it. `annotate` accepts any name that no field
and no computed column has, but a path is cut at its dots before its first segment is looked up, so
that a name with a dot in it is no path to its column (`hops_eq_nil_iff`). For every other name the
lookup finds the new column, then and after any operations, since these only add columns behind it
(`annotation_reachable_iff`).
-/

namespace BoundSql

namespace FieldPath

/-- A text without a dot is its own last segment. -/
lemma segments_of_not_mem {text : List Char} (noDot : '.' ∉ text) : segments text = ([], text) := by
  induction text with
  | nil => rfl
  | cons c rest ih =>
    obtain ⟨other, later⟩ := List.ne_and_not_mem_of_not_mem_cons noDot
    rw [segments, ih later]
    exact if_neg (Ne.symm other)

/-- A dot ends a segment, and what stands before it does not take that back. -/
lemma segments_fst_ne_nil {text : List Char} (dot : '.' ∈ text) : (segments text).1 ≠ [] := by
  induction text with
  | nil => cases dot
  | cons c rest ih =>
    rw [segments]
    by_cases isDot : c = '.'
    · simp [isDot]
    · have later : '.' ∈ rest := (List.mem_cons.1 dot).resolve_left (Ne.symm isDot)
      cases cut : segments rest with
      | mk hops last =>
        have more := ih later
        rw [cut] at more
        cases hops with
        | nil => exact absurd rfl more
        | cons => simp [isDot]

/-- A text without dots is a path of one segment, and no other text is. -/
lemma hops_eq_nil_iff (s : String) : (ofString s).hops = [] ↔ '.' ∉ s.toList := by
  constructor
  · intro single dot
    exact segments_fst_ne_nil dot (List.map_eq_nil_iff.1 single)
  · intro noDot
    rw [ofString, segments_of_not_mem noDot]
    rfl

/-- A text without a dot is its own first segment. -/
lemma first_of_not_mem {s : String} (noDot : '.' ∉ s.toList) : (ofString s).first = s := by
  rw [ofString, segments_of_not_mem noDot]
  exact String.ofList_toList

end FieldPath

namespace Select

open Select.Action

variable {mode : Resolution} {path name : String} {source e : Expr} {s t u : Select}

/-- A computed column that an operation accepts has a new name, and stands behind all others. -/
lemma annotate_ok (run : (annotate name e).on s = (.ok (), t)) :
    ∃ source u, (resolve {} e).on s = (.ok source, u) ∧
      t = { u with computed := u.computed ++ [(name, source)] } ∧
      t.computed.find? (·.1 == name) = some (name, source) := by
  rw [on_annotate] at run
  split_ifs at run with field taken
  · cases run
  · cases run
  · rcases on_cases (resolve {} e) s with ⟨source, u, resolved⟩ | ⟨x, u, resolved⟩
    · rw [resolved] at run
      cases run
      refine ⟨source, u, resolved, rfl, ?_⟩
      have new : s.computed.find? (·.1 == name) = none :=
        List.find?_eq_none.2 fun c mem same => taken (List.any_eq_true.2 ⟨c, mem, same⟩)
      obtain ⟨added, rfl⟩ := resolve_grown resolved
      rw [List.find?_append, new]
      simp
    · rw [resolved] at run
      cases run

/-- A path that is the name of a computed column is resolved to it, as long as it has no dot. -/
lemma resolveField_of_computed (noDot : '.' ∉ name.toList)
    (found : s.computed.find? (·.1 == name) = some (name, source)) :
    (resolveField mode name).on s = (.ok (.ref name source), s) := by
  have single := (FieldPath.hops_eq_nil_iff name).2 noDot
  rw [resolveField, on_bind_ok (on_get s)]
  dsimp only
  rw [FieldPath.first_of_not_mem noDot, found, single]
  rfl

/-- Only a path without dots can be resolved to a computed column. -/
lemma not_mem_of_resolveField (run : (resolveField mode path).on s = (.ok (.ref name source), t)) :
    '.' ∉ path.toList := by
  rcases resolveField_cases mode path s with
    ⟨_, _, -, -, single⟩ | ⟨_, _, _, run', -⟩ | ⟨_, _, _, _, run', -⟩
  · exact (FieldPath.hops_eq_nil_iff path).1 single
  · cases run'.symm.trans run
  · cases run'.symm.trans run

/-- A computed column that was added stands for what its expression was resolved to. Its name leads to
it exactly when there is no dot in the name: then a path that is the name is resolved to the column,
now and after any operations, whether they succeed or fail, in every mode but that of summaries, and
the query stays as it is. -/
theorem annotation_reachable_iff (run : (annotate name e).on s = (.ok (), t)) :
    ∃ source u, (resolve {} e).on s = (.ok source, u) ∧
      t = { u with computed := u.computed ++ [(name, source)] } ∧
      ∀ operations (mode : Resolution), mode.summarize = false →
        ((resolve mode (.field name)).on (t.after operations) =
          (.ok (.ref name source), t.after operations) ↔ '.' ∉ name.toList) := by
  obtain ⟨source, u, resolved, eq, found⟩ := annotate_ok run
  refine ⟨source, u, resolved, eq, fun operations mode rows => ?_⟩
  rw [on_resolve_field_of_rows rows]
  constructor
  · exact not_mem_of_resolveField
  · intro noDot
    obtain ⟨added, computed, -⟩ := (after_extends operations t).computed
    have start : t.computed <+: (t.after operations).computed := ⟨added, computed.symm⟩
    exact resolveField_of_computed noDot (find?_of_start found start)

/-- What is left of the pay. -/
def netPay : Expr :=
  .arith (.field "pay") .sub (.literal (.integer 1) none) none

/-- A name that is one segment leads to its column also after others were added, and where no relation
may be crossed. -/
theorem annotation_reachable_iff_net :
    ∃ t, (annotate "net" netPay).on allStaff = (.ok (), t) ∧
      let source := Expr.arith (.column "T2" "pay" (some .integer)) .sub
        (.literal (.integer 1) none) none
      (resolve { allowJoins := false } (.field "net")).on (t.after rejoined) =
        (.ok (.ref "net" source), t.after rejoined) := by
  obtain ⟨t, added⟩ : ∃ t, (annotate "net" netPay).on allStaff = (.ok (), t) := ⟨_, rfl⟩
  obtain ⟨source, u, resolved, -, reachable⟩ := annotation_reachable_iff added
  cases resolved
  exact ⟨t, added, (reachable rejoined { allowJoins := false } rfl).2 (by decide)⟩

/-- A dotted name is accepted, and is no path to its column. -/
theorem annotation_unreachable :
    ¬ ∀ (c : Catalog) (table name : String) (s t u : Select) (before later : List Operation)
      (e source : Expr) (mode : Resolution), c.Built → ofTable c table = .ok s →
      (annotate name e).on (s.after before) = (.ok (), t) →
      (resolve {} e).on (s.after before) = (.ok source, u) → mode.summarize = false →
      ∃ v, (resolve mode (.field name)).on (t.after later) = (.ok (.ref name source), v) ∧
        v.joins = (t.after later).joins := by
  intro all
  have built : allStaff.catalog.Built := .add (t := staff) .empty rfl
  obtain ⟨v, run, -⟩ := all allStaff.catalog "person" "net.pay" allStaff _ _ [] [] netPay _ {} built
    ofTable_allStaff rfl rfl rfl
  rw [on_resolve_field] at run
  have dotted : '.' ∈ "net.pay".toList := by decide
  exact not_mem_of_resolveField run dotted

end Select

end BoundSql
