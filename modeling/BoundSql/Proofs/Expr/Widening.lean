import BoundSql.Expr.Typing
import BoundSql.Proofs.Except

/-!
# The type of numeric arithmetic

Arithmetic on numbers has the widest type among its leaves, however it is grouped and whatever its
operators are; a float and a decimal have no common type, wherever the two stand
(`numeric_type_widest`). The step is `typeOf_resultType`: what an operator makes of the widest types on
its sides is the widest type of both sides together.
-/

namespace BoundSql

namespace SqlType

/-- There are a float and a decimal. -/
def Clash (types : List SqlType) : Prop :=
  .float ∈ types ∧ .decimal ∈ types

instance (types : List SqlType) : Decidable (Clash types) :=
  inferInstanceAs (Decidable (_ ∧ _))

/-- The widest of the types of some numbers, if there is any. -/
def widest (types : List SqlType) : Option SqlType :=
  if .decimal ∈ types then some .decimal
  else if .float ∈ types then some .float
  else if .bigInteger ∈ types then some .bigInteger
  else if .integer ∈ types then some .integer
  else none

end SqlType

/-- An operator stands between a float and a decimal. -/
def Error.IsClash (error : Error) : Prop :=
  ∃ op, error = .operandTypes op .float .decimal ∨ error = .operandTypes op .decimal .float

/-- What is inferred from numbers of the given types. -/
inductive TypeOf (types : List SqlType) : Except Error (Option SqlType) → Prop where
  | clash {error : Error} : SqlType.Clash types → error.IsClash → TypeOf types (.error error)
  | widest : ¬ SqlType.Clash types → TypeOf types (.ok (SqlType.widest types))

namespace Expr

/-- Arithmetic without declared types, on columns and literals whose types are those of numbers or are
not known. References may stand in between. -/
inductive IsNumeric : Expr → Prop where
  | column (tableAlias name) {type : Option SqlType} :
      (∀ t ∈ type, t.isNumeric = true) → IsNumeric (.column tableAlias name type)
  | literal {value : Value} {type : Option SqlType} :
      (∀ t ∈ type <|> value.type?, t.isNumeric = true) → IsNumeric (.literal value type)
  | arith {left right} (op) :
      IsNumeric left → IsNumeric right → IsNumeric (.arith left op right none)
  | ref {source} (name) : IsNumeric source → IsNumeric (.ref name source)

/-- The types of the columns and literals of a tree, as far as they are known. -/
def leafTypes : Expr → List SqlType :=
  fold fun e sources =>
    match e with
    | .column _ _ type => type.toList
    | .literal value type => (type <|> value.type?).toList
    | _ => sources.flatten

end Expr

open SqlType

variable {types others : List SqlType} {e e' : Expr}

/-- The widest of some numeric types is the first of decimal, float, big integer and integer
among them. -/
lemma SqlType.widest_cases (types : List SqlType) :
    (widest types = some .decimal ∧ .decimal ∈ types) ∨
    (widest types = some .float ∧ .decimal ∉ types ∧ .float ∈ types) ∨
    (widest types = some .bigInteger ∧ .decimal ∉ types ∧ .float ∉ types ∧ .bigInteger ∈ types) ∨
    (widest types = some .integer ∧ .decimal ∉ types ∧ .float ∉ types ∧ .bigInteger ∉ types ∧
      .integer ∈ types) ∨
    (widest types = none ∧ .decimal ∉ types ∧ .float ∉ types ∧ .bigInteger ∉ types ∧
      .integer ∉ types) := by
  unfold widest
  split_ifs <;> simp [*]

/-- A leaf has its own type. -/
lemma TypeOf.of_toList {type : Option SqlType} (numeric : ∀ t ∈ type, t.isNumeric = true) :
    TypeOf type.toList (.ok type) := by
  cases type with
  | none => exact .widest (by decide)
  | some t =>
    cases t with
    | integer | bigInteger | float | decimal => exact .widest (by decide)
    | _ => cases numeric _ rfl

/-- On numbers an operator gives the widest type of both sides together. -/
lemma typeOf_resultType (op : ArithOp) (left : ¬ Clash types) (right : ¬ Clash others) :
    TypeOf (types ++ others) (op.resultType (widest types) (widest others)) := by
  have given : if Clash (types ++ others) then
      ∃ error : Error, op.resultType (widest types) (widest others) = .error error ∧ error.IsClash
      else op.resultType (widest types) (widest others) = .ok (widest (types ++ others)) := by
    -- the table of operators has a row for each pair of types
    rcases widest_cases types with ⟨eq, h⟩ | ⟨eq, h⟩ | ⟨eq, h⟩ | ⟨eq, h⟩ | ⟨eq, h⟩ <;>
      rcases widest_cases others with ⟨eq', h'⟩ | ⟨eq', h'⟩ | ⟨eq', h'⟩ | ⟨eq', h'⟩ | ⟨eq', h'⟩ <;>
      simp_all [Clash, widest, ArithOp.resultType, ArithOp.common?, ArithOp.numeric?,
        ArithOp.temporal?, Error.IsClash]
  split_ifs at given with clash
  · obtain ⟨error, eq, isClash⟩ := given
    rw [eq]
    exact .clash clash isClash
  · rw [given]
    exact .widest clash

/-- Types that clash still clash with more types after them. -/
lemma SqlType.Clash.append_left (h : Clash types) : Clash (types ++ others) :=
  ⟨List.mem_append_left _ h.1, List.mem_append_left _ h.2⟩

/-- Types that clash still clash with more types before them. -/
lemma SqlType.Clash.append_right (h : Clash others) : Clash (types ++ others) :=
  ⟨List.mem_append_right _ h.1, List.mem_append_right _ h.2⟩

/-- Arithmetic over two operands has the type that the types under both give. -/
lemma TypeOf.arith {left right : Except Error (Option SqlType)} (op : ArithOp)
    (h : TypeOf types left) (h' : TypeOf others right) :
    TypeOf (types ++ others) (do op.resultType (← left) (← right)) := by
  cases h with
  | clash clash isClash => exact .clash clash.append_left isClash
  | widest plain =>
    cases h' with
    | clash clash isClash => exact .clash clash.append_right isClash
    | widest plain' => exact typeOf_resultType op plain plain'

namespace Expr

/-- The leaves of arithmetic are those of its operands. -/
lemma leafTypes_arith (left right : Expr) (op : ArithOp) (type : Option SqlType) :
    (arith left op right type).leafTypes = left.leafTypes ++ right.leafTypes := by
  rw [leafTypes, fold_eq]
  exact congrArg (left.leafTypes ++ ·) (List.append_nil _)

/-- The leaves of a reference are those of what it refers to. -/
lemma leafTypes_ref (name : String) (source : Expr) :
    (ref name source).leafTypes = source.leafTypes := by
  rw [leafTypes, fold_eq]
  exact List.append_nil _

/-- The type of arithmetic on numbers follows from those of its leaves. -/
lemma IsNumeric.typeOf (h : e.IsNumeric) : TypeOf e.leafTypes e.type? := by
  induction h with
  | column _ _ numeric | literal numeric => exact .of_toList numeric
  | arith op _ _ ihl ihr =>
    rw [leafTypes_arith]
    exact ihl.arith op ihr
  | ref name _ ih =>
    rw [leafTypes_ref]
    exact ih

/-- Arithmetic on numbers has no type when a float and a decimal are among its leaves, and their widest
type else. So trees with leaves of the same types have the same type, whatever their operators and
however the leaves are ordered and grouped. -/
theorem numeric_type_widest (numeric : e.IsNumeric) :
    (Clash e.leafTypes → ∃ error, e.type? = .error error ∧ error.IsClash) ∧
    (¬ Clash e.leafTypes → e.type? = .ok (widest e.leafTypes)) ∧
    ∀ e' : Expr, e'.IsNumeric → (∀ t, t ∈ e'.leafTypes ↔ t ∈ e.leafTypes) →
      e'.type?.toOption = e.type?.toOption := by
  have typed := numeric.typeOf
  refine ⟨fun clash => ?_, fun plain => ?_, fun e' numeric' same => ?_⟩
  · generalize e.type? = type at typed
    cases typed with
    | clash _ isClash => exact ⟨_, rfl, isClash⟩
    | widest plain => exact absurd clash plain
  · generalize e.type? = type at typed
    cases typed with
    | clash clash _ => exact absurd clash plain
    | widest => rfl
  -- whether types clash, and which is the widest, depends on which types there are
  · have typed' := numeric'.typeOf
    have clash_iff : Clash e'.leafTypes ↔ Clash e.leafTypes := and_congr (same _) (same _)
    have widest_eq : widest e'.leafTypes = widest e.leafTypes := by simp only [widest, same]
    generalize e.type? = type, e'.type? = type' at typed typed'
    cases typed with
    | clash clash =>
      cases typed' with
      | clash => rfl
      | widest plain' => exact absurd (clash_iff.2 clash) plain'
    | widest plain =>
      cases typed' with
      | clash clash' => exact absurd (clash_iff.1 clash') plain
      | widest => exact congrArg some widest_eq

/-- Pay and a limit with a name, in two groupings, and the two against a rate. -/
def payOverLimit (rate : SqlType) : Expr × Expr :=
  let pay := column "T2" "pay" (some .integer)
  let limit := ref "limit" (column "T3" "limit" (some .bigInteger))
  let rate := column "T2" "rate" (some rate)
  let nothing := literal .null none
  (.arith (.arith pay .sub nothing none) .div (.arith rate .pow limit none) none,
    .arith (.arith (.arith limit .mod rate none) .add (literal (.float 0.5) none) none) .mul pay none)

/-- A float rate makes either grouping a float, and a decimal one goes with no float. -/
theorem numeric_type_widest_payOverLimit :
    (payOverLimit .float).1.type? = .ok (some .float) ∧
      (∃ error, (payOverLimit .decimal).2.type? = .error error ∧ error.IsClash) ∧
      (payOverLimit .float).2.type?.toOption = (payOverLimit .float).1.type?.toOption := by
  have pay : IsNumeric (column "T2" "pay" (some .integer)) := .column _ _ (by decide)
  have limit : IsNumeric (ref "limit" (column "T3" "limit" (some .bigInteger))) :=
    .ref _ (.column _ _ (by decide))
  have rate {t : SqlType} (numeric : t.isNumeric = true) : IsNumeric (column "T2" "rate" (some t)) :=
    .column _ _ fun t' mem => by cases mem; exact numeric
  have first : (payOverLimit .float).1.IsNumeric :=
    .arith _ (.arith _ pay (.literal nofun)) (.arith _ (rate rfl) limit)
  have second {t : SqlType} (numeric : t.isNumeric = true) : (payOverLimit t).2.IsNumeric :=
    .arith _ (.arith _ (.arith _ limit (rate numeric)) (.literal (by decide))) pay
  refine ⟨(numeric_type_widest first).2.1 (by decide), ?_, ?_⟩
  · exact (numeric_type_widest (second rfl)).1 (by decide)
  · refine (numeric_type_widest first).2.2 _ (second rfl) fun t => ?_
    cases t <;> decide

end Expr

end BoundSql
