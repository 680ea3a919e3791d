import BoundSql.Expr.Functions
import BoundSql.Expr.Typing
import BoundSql.Rendering
import Mathlib.Tactic.Lemma

/-!
# Values converted twice

A fetched value that is converted twice stays as it was after the first time, with one exception
(`coerce_twice`): where counts are declared to be floats, a missing count becomes the count 0 as a whole
number, and only the second conversion widens it. A third one never changes anything.
-/

namespace BoundSql

namespace AggregateKind

variable {kind : AggregateKind} {type : Except Error (Option SqlType)} {n : Int64} {v : Value}

/-- An integer of a float aggregate is converted to a float. -/
lemma coerce_integer_float :
    kind.coerce (.ok (some .float)) (.integer n) = .float n.toFloat := rfl

/-- An integer of any other aggregate is left as it is. -/
lemma coerce_integer_of_ne (ne : type ≠ .ok (some .float)) :
    kind.coerce type (.integer n) = .integer n := by
  simp only [coerce]

/-- A whole number stays one unless floats are expected. -/
lemma coerce_integer_eq_iff :
    kind.coerce type (.integer n) = .integer n ↔ type ≠ .ok (some .float) := by
  constructor
  · rintro kept rfl
    cases coerce_integer_float.symm.trans kept
  · exact coerce_integer_of_ne

/-- What a conversion gives is left alone by the next, but for a missing count that is to be a float. -/
lemma coerce_coerce_iff :
    kind.coerce type (kind.coerce type v) = kind.coerce type v ↔
      ¬ (v = .null ∧ kind = .count ∧ type = .ok (some .float)) := by
  cases v with
  | null =>
    by_cases counts : kind = .count
    · subst counts
      have zero : count.coerce type .null = .integer 0 := rfl
      rw [zero, coerce_integer_eq_iff]
      simp only [true_and, ne_eq]
    · have missing : kind.coerce type .null = .null := if_neg counts
      rw [missing, missing]
      exact iff_of_true rfl fun h => counts h.2.1
  | integer n =>
    refine iff_of_true ?_ nofun
    by_cases floats : type = .ok (some .float)
    · rw [floats, coerce_integer_float]
      rfl
    · rw [coerce_integer_of_ne floats, coerce_integer_of_ne floats]
  | _ => exact iff_of_true rfl nofun

end AggregateKind

namespace Expr

variable {e : Expr} {d : Dialect} {v : Value}

/-- The expression counts, and its counts are declared to be floats. -/
def countsInFloats (e : Expr) : Bool :=
  match e.inlined with
  | .aggregate .count head .. => head.type == some .float
  | _ => false

/-- The conversion to booleans changes nothing the second time. -/
lemma coerceBoolean_coerceBoolean {type : Option SqlType} :
    coerceBoolean d type (coerceBoolean d type v) = coerceBoolean d type v := by
  cases v with
  | integer n =>
    by_cases truth : type = some .boolean ∧ ¬ d.hasNativeBoolean
    · have read : coerceBoolean d type (.integer n) = .boolean (n != 0) := if_pos truth
      rw [read]
      rfl
    · have kept : coerceBoolean d type (.integer n) = .integer n := if_neg truth
      rw [kept, kept]
  | _ => rfl

/-- The counts in floats are the counts that are declared, or inferred, to be floats. -/
lemma countsInFloats_aggregate {kind : AggregateKind} {head : CallHead} {args : List Expr}
    {distinct summary : Bool} :
    (aggregate kind head args distinct summary).countsInFloats = true ↔ kind = .count ∧
      (aggregate kind head args distinct summary).type? = .ok (some .float) := by
  cases kind with
  | count => cases type : head.type <;> simp [countsInFloats, inlined, type?, type]
  | _ => simp [countsInFloats, inlined]

/-- A conversion is that of an aggregate, reads truth values, or leaves all values as they are. -/
lemma coerce_cases (e : Expr) (d : Dialect) :
    (∃ kind : AggregateKind, ∃ type, e.coerce d = kind.coerce type ∧
      (e.countsInFloats = true ↔ kind = .count ∧ type = .ok (some .float))) ∨
    (∃ type, e.coerce d = coerceBoolean d type ∧ e.countsInFloats = false) ∨
    e.coerce d = id ∧ e.countsInFloats = false := by
  -- references and declared types convert as their source does
  induction e using inlined.induct with
  | case1 name source ih => exact ih
  | case2 source type ih => exact ih
  | case3 e noRef noTyped =>
    cases e with
    | ref => exact absurd rfl (noRef _ _)
    | typed => exact absurd rfl (noTyped _ _)
    | column _ _ type => exact .inr (.inl ⟨type, funext fun _ => rfl, rfl⟩)
    | aggregate kind => exact .inl ⟨kind, _, funext fun _ => rfl, countsInFloats_aggregate⟩
    | _ => exact .inr (.inr ⟨funext fun _ => rfl, rfl⟩)

/-- Two conversions differ from one only for a missing count that is declared to be a float. -/
lemma coerce_coerce_iff :
    e.coerce d (e.coerce d v) = e.coerce d v ↔ ¬ (v = .null ∧ e.countsInFloats = true) := by
  rcases coerce_cases e d with ⟨kind, type, eq, counts⟩ | ⟨type, eq, never⟩ | ⟨eq, never⟩
  · rw [eq, counts]
    exact AggregateKind.coerce_coerce_iff
  · rw [eq, never]
    exact iff_of_true coerceBoolean_coerceBoolean nofun
  · rw [eq, never]
    exact iff_of_true rfl nofun

/-- Such a count takes NULL to an integer and every integer to a float. -/
lemma coerce_of_countsInFloats (floats : e.countsInFloats = true) :
    e.coerce d .null = .integer 0 ∧ ∀ n, e.coerce d (.integer n) = .float n.toFloat := by
  rcases coerce_cases e d with ⟨kind, type, eq, counts⟩ | ⟨-, -, never⟩ | ⟨-, never⟩
  · obtain ⟨rfl, rfl⟩ := counts.1 floats
    rw [eq]
    exact ⟨rfl, fun _ => rfl⟩
  · cases floats.symm.trans never
  · cases floats.symm.trans never

end Expr

/-- A value is changed by a second conversion exactly when it is a missing count that is declared to be
a float, on every dialect and through any references and declared types. Such a count is converted to
the whole number 0 first and to the float 0 then. A third conversion never changes anything. -/
theorem coerce_twice (e : Expr) (d : Dialect) (v : Value) :
    (e.coerce d (e.coerce d v) = e.coerce d v ↔ ¬ (v = .null ∧ e.countsInFloats = true)) ∧
    (v = .null ∧ e.countsInFloats = true →
      e.coerce d v = .integer 0 ∧ e.coerce d (e.coerce d v) = .float (Int64.toFloat 0)) ∧
    e.coerce d (e.coerce d (e.coerce d v)) = e.coerce d (e.coerce d v) := by
  refine ⟨Expr.coerce_coerce_iff, ?_, ?_⟩
  · rintro ⟨rfl, floats⟩
    obtain ⟨zero, widened⟩ := Expr.coerce_of_countsInFloats (d := d) floats
    rw [zero]
    exact ⟨rfl, widened 0⟩
  · by_cases missing : v = .null ∧ e.countsInFloats = true
    · obtain ⟨rfl, floats⟩ := missing
      rw [(Expr.coerce_of_countsInFloats floats).1]
      exact Expr.coerce_coerce_iff.2 nofun
    · exact congrArg (e.coerce d) (Expr.coerce_coerce_iff.2 missing)

/-- A missing count that is declared to be a float is the whole number 0 after one conversion. -/
theorem coerce_twice_missing :
    let counts := Expr.withType .float (.aggregateOf .count (.column "T2" "pay" (some .integer)))
    counts.countsInFloats = true ∧ counts.coerce .sqlite .null = .integer 0 := by
  intro counts
  have floats : counts.countsInFloats = true := rfl
  exact ⟨floats, ((coerce_twice counts .sqlite .null).2.1 ⟨rfl, floats⟩).1⟩

/-- So a second conversion changes it. -/
theorem coerce_changes_again :
    let counts := Expr.withType .float (.aggregateOf .count (.column "T2" "pay" (some .integer)))
    counts.coerce .postgres (counts.coerce .postgres .null) ≠ counts.coerce .postgres .null := by
  intro counts
  have first : counts.coerce .postgres .null = .integer 0 := rfl
  have second : counts.coerce .postgres (.integer 0) = .float (Int64.toFloat 0) := rfl
  rw [first, second]
  nofun

end BoundSql
