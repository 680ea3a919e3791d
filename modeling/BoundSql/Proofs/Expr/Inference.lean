import BoundSql.Expr.Functions
import BoundSql.Proofs.Expr.Typing

/-!
# The type of a call

A call without a declared type has the one type that its arguments have, those without a known type left
out. The arguments are looked at one after another, with the type found so far at hand;
`sharedType_eq_ok_iff` says without an order what comes out. So neither the order of the arguments nor
untyped ones among them make a difference (`inferred_type_unordered`).
-/

namespace BoundSql.Expr

variable {head : CallHead} {found k : Option SqlType} {t : SqlType} {es es' : List Expr}

/-- A type comes out when it is that of every argument with a known type, and was found before or is
that of an argument. -/
lemma sharedType_eq_ok_iff :
    sharedType found es = .ok k ↔ (found = none ∨ found = k) ∧
      (∀ e ∈ es, e.type? = .ok none ∨ e.type? = .ok k) ∧ (found = k ∨ ∃ e ∈ es, e.type? = .ok k) := by
  induction es generalizing found with
  | nil =>
    simp only [sharedType, Except.ok.injEq, List.not_mem_nil, false_and, exists_false, or_false,
      IsEmpty.forall_iff, implies_true, true_and]
    exact ⟨fun eq => ⟨.inr eq, eq⟩, And.right⟩
  | cons e es ih =>
    rw [List.forall_mem_cons, List.exists_mem_cons_iff]
    cases type : e.type? with
    | error x => simp [sharedType, type, bind, Except.bind]
    | ok seen =>
      cases seen with
      | none =>
        have skipped : sharedType found (e :: es) = sharedType found es := by
          cases found <;> simp [sharedType, type, bind, Except.bind]
        rw [skipped, ih]
        grind
      | some t =>
        cases found with
        | none =>
          have first : sharedType none (e :: es) = sharedType (some t) es := by
            simp [sharedType, type, bind, Except.bind]
          rw [first, ih]
          grind
        | some f =>
          -- a type that was found before goes on with no other one
          by_cases same : f = t
          · have again : sharedType (some f) (e :: es) = sharedType (some f) es := by
              simp [sharedType, type, bind, Except.bind, same]
            rw [again, ih]
            grind
          · have mixed : sharedType (some f) (e :: es) = .error (.mixedTypes f t) := by
              simp [sharedType, type, bind, Except.bind, same]
            rw [mixed]
            grind

/-- An undeclared call has the type that its arguments share. -/
lemma type?_call (undeclared : head.type = none) (es : List Expr) :
    (call head es).type? = sharedType none es := by
  simp only [type?, undeclared]

/-- An undeclared call has a type just when one of its arguments has it and no argument disagrees. -/
lemma type?_call_eq_some_iff (undeclared : head.type = none) :
    (call head es).type? = .ok (some t) ↔
      (∀ e ∈ es, e.type? = .ok none ∨ e.type? = .ok (some t)) ∧ ∃ e ∈ es, e.type? = .ok (some t) := by
  rw [type?_call undeclared, sharedType_eq_ok_iff]
  simp only [true_or, true_and, reduceCtorEq, false_or]

/-- An undeclared call has no type just when none of its arguments has one. -/
lemma type?_call_eq_none_iff (undeclared : head.type = none) :
    (call head es).type? = .ok none ↔ ∀ e ∈ es, e.type? = .ok none := by
  rw [type?_call undeclared, sharedType_eq_ok_iff]
  simp only [true_or, true_and, or_self, and_true]

/-- There is a type, known or not, when each argument has one and the known ones agree. -/
lemma exists_type?_call (undeclared : head.type = none)
    (each : ∀ e ∈ es, ∃ k, e.type? = .ok k)
    (agree : ∀ e ∈ es, ∀ e' ∈ es, ∀ t t',
      e.type? = .ok (some t) → e'.type? = .ok (some t') → t = t') :
    ∃ k, (call head es).type? = .ok k := by
  by_cases known : ∃ e ∈ es, ∃ t, e.type? = .ok (some t)
  · obtain ⟨e, mem, t, type⟩ := known
    refine ⟨some t, (type?_call_eq_some_iff undeclared).2 ⟨fun e' mem' => ?_, e, mem, type⟩⟩
    obtain ⟨_ | t', type'⟩ := each e' mem'
    · exact .inl type'
    · rw [agree e mem e' mem' t t' type type']
      exact .inr type'
  · refine ⟨none, (type?_call_eq_none_iff undeclared).2 fun e mem => ?_⟩
    obtain ⟨_ | t, type⟩ := each e mem
    · exact type
    · exact absurd ⟨e, mem, t, type⟩ known

/-- There is no type when an argument has none to give, or two of them have different ones. -/
lemma type?_call_eq_error_iff (undeclared : head.type = none) :
    (∃ x, (call head es).type? = .error x) ↔ (∃ e ∈ es, ∃ x, e.type? = .error x) ∨
      ∃ e ∈ es, ∃ e' ∈ es, ∃ t t', e.type? = .ok (some t) ∧ e'.type? = .ok (some t') ∧ t ≠ t' := by
  constructor
  · rintro ⟨x, fails⟩
    by_contra fine
    simp only [not_or, not_exists, not_and, not_not] at fine
    obtain ⟨each, agree⟩ := fine
    have typed : ∀ e ∈ es, ∃ k, e.type? = .ok k := by
      intro e mem
      cases type : e.type? with
      | error x => exact absurd type (each e mem x)
      | ok k => exact ⟨k, rfl⟩
    obtain ⟨k, type⟩ := exists_type?_call undeclared typed agree
    cases fails.symm.trans type
  · intro conflict
    cases type : (call head es).type? with
    | error x => exact ⟨x, rfl⟩
    | ok k =>
      -- a type that came out is that of all arguments with a known type
      rw [type?_call undeclared] at type
      obtain ⟨-, each, -⟩ := sharedType_eq_ok_iff.1 type
      rcases conflict with ⟨e, mem, x, fails⟩ | ⟨e, mem, e', mem', t, t', eq, eq', ne⟩
      · rcases each e mem with h | h <;> cases fails.symm.trans h
      · grind

/-- The order of the arguments makes no difference, nor do further ones without a known type. -/
lemma type?_call_of_perm (undeclared : head.type = none) {untyped : List Expr}
    (unknown : ∀ e ∈ untyped, e.type? = .ok none) (perm : es'.Perm (es ++ untyped)) :
    (call head es').type? = .ok k ↔ (call head es).type? = .ok k := by
  rw [type?_call undeclared, type?_call undeclared, sharedType_eq_ok_iff, sharedType_eq_ok_iff]
  simp only [perm.mem_iff, List.mem_append]
  grind

/-- Nor does it when references stand for arguments. -/
lemma type?_call_of_refs
    (refs : List.Forall₂ (fun e e' => e' = e ∨ ∃ name, e' = ref name e) es es') :
    (call head es').type? = (call head es).type? := by
  refine type?_replaceSources (e := call head es) (refs.imp fun e e' same => ?_)
  rcases same with rfl | ⟨name, rfl⟩
  · rfl
  · simp only [type?]

/-- A call without a declared type has a known type exactly when every argument has a type, known or
not, one of them is known and all that are known are that one; it has no known type exactly when no
argument has one; and it fails exactly when an argument fails or the types of two differ. So a type
stays as it is when the arguments change places, when arguments without a known type come in anywhere,
and when arguments are replaced by references to them. -/
theorem inferred_type_unordered {head : CallHead} (undeclared : head.type = none)
    (args : List Expr) :
    (∀ t, (call head args).type? = .ok (some t) ↔
      (∀ a ∈ args, a.type? = .ok none ∨ a.type? = .ok (some t)) ∧
      ∃ a ∈ args, a.type? = .ok (some t)) ∧
    ((call head args).type? = .ok none ↔ ∀ a ∈ args, a.type? = .ok none) ∧
    ((∃ x, (call head args).type? = .error x) ↔ (∃ a ∈ args, ∃ x, a.type? = .error x) ∨
      ∃ a ∈ args, ∃ b ∈ args, ∃ t u, a.type? = .ok (some t) ∧ b.type? = .ok (some u) ∧ t ≠ u) ∧
    (∀ args' untyped, (∀ a ∈ untyped, a.type? = .ok none) → args'.Perm (args ++ untyped) →
      ∀ k, (call head args').type? = .ok k ↔ (call head args).type? = .ok k) ∧
    ∀ args', List.Forall₂ (fun a a' => a' = a ∨ ∃ name, a' = ref name a) args args' →
      (call head args').type? = (call head args).type? :=
  ⟨fun _ => type?_call_eq_some_iff undeclared, type?_call_eq_none_iff undeclared,
    type?_call_eq_error_iff undeclared,
    fun _ _ unknown perm _ => type?_call_of_perm undeclared unknown perm,
    fun _ refs => type?_call_of_refs refs⟩

/-- `COALESCE(NULL, pay)` and `COALESCE(x, NULL)`, where `x` refers to `pay`, are integers as
`COALESCE(pay)` is. -/
theorem inferred_type_unordered_coalesce :
    let head := CallHead.variadic "Coalesce" "COALESCE" none
    let pay := column "T2" "pay" (some .integer)
    let unknown := literal .null none
    head.type = none ∧ (call head [unknown, pay]).type? = .ok (some .integer) ∧
      (call head [ref "x" pay, unknown]).type? = .ok (some .integer) := by
  intro head pay unknown
  have undeclared : head.type = none := rfl
  have single : (call head [pay]).type? = .ok (some .integer) := by
    rw [(inferred_type_unordered undeclared [pay]).1]
    simp [pay, type?]
  have swapped := (inferred_type_unordered undeclared [pay]).2.2.2.1
  have refs := (inferred_type_unordered undeclared [pay, unknown]).2.2.2.2
  have untyped : ∀ e ∈ [unknown], e.type? = .ok none := by simp [unknown, type?, Value.type?]
  refine ⟨undeclared, ?_, ?_⟩
  · exact (swapped _ [unknown] untyped (.swap pay unknown []) _).2 single
  · rw [refs [ref "x" pay, unknown] (by simp)]
    exact (swapped _ [unknown] untyped (.refl _) _).2 single

end BoundSql.Expr
