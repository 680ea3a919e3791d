import BoundSql.Proofs.Expr.Denotation
import BoundSql.Proofs.Sql.Words

/-!
# Reading values and predicates

A grammar for the words of values and predicates, which says what they denote. An operand is a column,
a marker, a power, or a value in parentheses, and a value is an operand or two of them with an operator
between them. A predicate is a comparison of two values, a neutral truth value, or a row of predicates
in parentheses, negated or not. `ReadsValue` and `ReadsPredicate` relate words to what they denote and
to the words behind it. There is no more than one way to read (`ReadsValue.unique`,
`ReadsPredicate.unique`): an opening parenthesis is that of a value exactly when what is in it is one
(`ReadsPredicate.not_value`).
-/

namespace BoundSql

variable {α : Type}

/-- How much is read as a value: an operand, or all up to where no operator follows. -/
inductive Extent where
  | operand
  | whole

/-- No arithmetic operator follows. -/
def NoOperator (words : List (Word α)) : Prop :=
  ∀ op, words.head? ≠ some (.sign (.arith op))

/-- No comparison follows. -/
def NoComparison (words : List (Word α)) : Prop :=
  ∀ op, words.head? ≠ some (.sign (.compare op))

/-- No connective follows. -/
def NoConnective (words : List (Word α)) : Prop :=
  ∀ c, words.head? ≠ some (.sign (.connective c))

/-- The words start with a value of the extent, which denotes `x`, and go on with `rest`. -/
inductive ReadsValue (I : Interpretation α) :
    Extent → List (Word α) → α → List (Word α) → Prop where
  | column (tableAlias name rest) :
      ReadsValue I .operand (.column tableAlias name :: rest) (I.column tableAlias name) rest
  | marker (x rest) : ReadsValue I .operand (.marker x :: rest) x rest
  | parenthesized {words x rest} :
      ReadsValue I .whole words x (.sign .closing :: rest) →
      ReadsValue I .operand (.sign .opening :: words) x rest
  | power {words x words' y rest} :
      ReadsValue I .whole words x (.sign .comma :: words') →
      ReadsValue I .whole words' y (.sign .closing :: rest) →
      ReadsValue I .operand (.sign .power :: .sign .opening :: words) (I.arith .pow x y) rest
  | alone {words x rest} :
      ReadsValue I .operand words x rest → NoOperator rest → ReadsValue I .whole words x rest
  | arith {words op x words' y rest} :
      ReadsValue I .operand words x (.sign (.arith op) :: words') →
      ReadsValue I .operand words' y rest → ReadsValue I .whole words (I.arith op x y) rest

/-- The words start with a predicate, or with a row of them that the connective joins, which is as true
as `t`, and go on with `rest`. -/
inductive ReadsPredicate (I : Interpretation α) :
    Option Connective → List (Word α) → Truth → List (Word α) → Prop where
  | compare {words op x words' y rest} :
      ReadsValue I .whole words x (.sign (.compare op) :: words') →
      ReadsValue I .whole words' y rest → ReadsPredicate I none words (I.compare op x y) rest
  | neutral (c rest) : ReadsPredicate I none (.sign (.neutral c) :: rest) (c.truth []) rest
  | parenthesized {c words t rest} :
      ReadsPredicate I (some c) words t (.sign .closing :: rest) →
      ReadsPredicate I none (.sign .opening :: words) t rest
  | not {c words t rest} :
      ReadsPredicate I (some c) words t (.sign .closing :: rest) →
      ReadsPredicate I none (.sign .not :: .sign .opening :: words) t.not rest
  | last {c words t rest} :
      ReadsPredicate I none words t rest → NoConnective rest → ReadsPredicate I (some c) words t rest
  | more {c words t words' u rest} :
      ReadsPredicate I none words t (.sign (.connective c) :: words') →
      ReadsPredicate I (some c) words' u rest → ReadsPredicate I (some c) words (c.truth [t, u]) rest

variable {I : Interpretation α} {extent : Extent} {row row' : Option Connective}
  {words rest rest' : List (Word α)} {x y : α} {t u : Truth}

/-- A value is read in one way, up to one place. -/
theorem ReadsValue.unique (h : ReadsValue I extent words x rest)
    (h' : ReadsValue I extent words y rest') : x = y ∧ rest = rest' := by
  induction h generalizing y rest' with
  | column | marker =>
    cases h'
    exact ⟨rfl, rfl⟩
  | parenthesized _ ih =>
    cases h' with
    | parenthesized inner =>
      obtain ⟨rfl, closing⟩ := ih inner
      exact ⟨rfl, List.tail_eq_of_cons_eq closing⟩
  | power _ _ ih ih' =>
    cases h' with
    | power first second =>
      obtain ⟨rfl, comma⟩ := ih first
      obtain rfl := List.tail_eq_of_cons_eq comma
      obtain ⟨rfl, closing⟩ := ih' second
      exact ⟨rfl, List.tail_eq_of_cons_eq closing⟩
  -- a value goes on just when an operator follows
  | alone _ stops ih =>
    cases h' with
    | alone operand _ => exact ih operand
    | arith first _ =>
      obtain ⟨-, rfl⟩ := ih first
      exact absurd rfl (stops _)
  | arith _ _ ih ih' =>
    cases h' with
    | alone operand stops =>
      obtain ⟨-, rfl⟩ := ih operand
      exact absurd rfl (stops _)
    | arith first second =>
      obtain ⟨rfl, operator⟩ := ih first
      cases operator
      obtain ⟨rfl, rfl⟩ := ih' second
      exact ⟨rfl, rfl⟩

/-- A value that starts with a sign starts with a parenthesis or a power. -/
lemma ReadsValue.sign_cases {k : Sign} (h : ReadsValue I .whole (.sign k :: words) x rest) :
    k = .opening ∨ k = .power := by
  cases h with
  | alone operand =>
    cases operand with
    | parenthesized => exact .inl rfl
    | power => exact .inr rfl
  | arith first =>
    cases first with
    | parenthesized => exact .inl rfl
    | power => exact .inr rfl

/-- A value that starts with a parenthesis starts with a value in it. -/
lemma ReadsValue.of_opening (h : ReadsValue I .whole (.sign .opening :: words) x rest) :
    ∃ y rest', ReadsValue I .whole words y (.sign .closing :: rest') := by
  cases h with
  | alone operand =>
    cases operand with
    | parenthesized inner => exact ⟨_, _, inner⟩
  | arith first =>
    cases first with
    | parenthesized inner => exact ⟨_, _, inner⟩

/-- What starts with a predicate starts with no value, unless with one that is compared. -/
lemma ReadsPredicate.not_value (h : ReadsPredicate I row words t rest')
    (value : ReadsValue I .whole words x rest) (stops : NoComparison rest) : False := by
  induction h generalizing x rest with
  | compare first =>
    obtain ⟨-, rfl⟩ := value.unique first
    exact stops _ rfl
  | neutral | not => simpa using value.sign_cases
  | parenthesized _ ih =>
    obtain ⟨y, rest', inner⟩ := value.of_opening
    exact ih inner nofun
  | last _ _ ih => exact ih value stops
  | more _ _ ih => exact ih value stops

/-- Parentheses around a predicate do not start a value. -/
lemma ReadsPredicate.not_opening (h : ReadsPredicate I row words t rest')
    (value : ReadsValue I .whole (.sign .opening :: words) x rest) : False := by
  obtain ⟨y, rest', inner⟩ := value.of_opening
  exact h.not_value inner nofun

/-- A predicate is read in one way, up to one place, and so is a row of them. -/
theorem ReadsPredicate.unique (h : ReadsPredicate I row words t rest)
    (h' : ReadsPredicate I row' words u rest') (same : row.isSome = row'.isSome) :
    t = u ∧ rest = rest' := by
  -- the first word tells the rules apart, but for a parenthesis and for where a row ends
  induction h generalizing row' u rest' with
  | compare first second =>
    cases h' with
    | compare first' second' =>
      obtain ⟨rfl, operator⟩ := first.unique first'
      cases operator
      obtain ⟨rfl, rfl⟩ := second.unique second'
      exact ⟨rfl, rfl⟩
    | neutral | not => simpa using first.sign_cases
    | parenthesized inner => exact (inner.not_opening first).elim
    | last | more => cases same
  | neutral =>
    cases h' with
    | compare first => simpa using first.sign_cases
    | neutral => exact ⟨rfl, rfl⟩
    | last | more => cases same
  | parenthesized inner ih =>
    cases h' with
    | compare first => exact (inner.not_opening first).elim
    | parenthesized inner' =>
      obtain ⟨rfl, closing⟩ := ih inner' rfl
      exact ⟨rfl, List.tail_eq_of_cons_eq closing⟩
    | last | more => cases same
  | not _ ih =>
    cases h' with
    | compare first => simpa using first.sign_cases
    | not inner' =>
      obtain ⟨rfl, closing⟩ := ih inner' rfl
      exact ⟨rfl, List.tail_eq_of_cons_eq closing⟩
    | last | more => cases same
  | last _ stops ih =>
    cases h' with
    | last single _ => exact ih single rfl
    | more first _ =>
      obtain ⟨-, rfl⟩ := ih first rfl
      exact absurd rfl (stops _)
    | _ => cases same
  | more _ _ ih ih' =>
    cases h' with
    | last single stops =>
      obtain ⟨-, rfl⟩ := ih single rfl
      exact absurd rfl (stops _)
    | more first later =>
      obtain ⟨rfl, connective⟩ := ih first rfl
      cases connective
      obtain ⟨rfl, rfl⟩ := ih' later rfl
      exact ⟨rfl, rfl⟩
    | _ => cases same

end BoundSql
