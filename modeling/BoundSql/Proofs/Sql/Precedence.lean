import BoundSql.Proofs.Expr.Term
import BoundSql.Proofs.Sql.Words

/-!
# Reading by precedence

How the words of a term are read when operators bind as a table of levels says, which is another one for
each dialect (`Dialect.precedence`). What is read waits in front of the operator behind it, until an
operator that binds no tighter makes it come to its operands: so tighter operators are applied first,
and those of one level from left to right. A negation takes all that binds tighter than itself. There is
no more than one way to read (`Reads.unique`).
-/

namespace BoundSql

variable {α : Type}

/-- The operators between two operands. -/
inductive BinaryOp where
  | arith (op : ArithOp)
  | compare (op : CompareOp)
  | concat
deriving DecidableEq

/-- How tight each operator binds. Of two operators the one of the higher level is applied first. -/
structure Precedence where
  level : BinaryOp → Nat
  not : Nat
  /-- The level of the tests for NULL, which stand behind their operand. -/
  nullTest : Nat

namespace Precedence

/-- The levels of PostgreSQL, which refuses comparisons of comparisons and groups all others from left
to right. -/
def postgres : Precedence where
  level
    | .compare _ => 2
    | .concat => 3
    | .arith .add | .arith .sub => 4
    | .arith .pow => 6
    | .arith _ => 5
  not := 0
  nullTest := 1

/-- The levels of SQLite, where powers are written as calls. -/
def sqlite : Precedence where
  level
    | .compare .eq | .compare .ne => 1
    | .compare _ => 2
    | .arith .add | .arith .sub => 3
    | .arith _ => 4
    | .concat => 5
  not := 0
  nullTest := 1

/-- The levels of MySQL, where powers and concatenations are written as calls. -/
def mysql : Precedence where
  level
    | .compare _ => 1
    | .arith .add | .arith .sub => 2
    | .arith _ => 3
    | .concat => 4
  not := 0
  nullTest := 1

end Precedence

/-- The levels of the dialect's operators. -/
def Dialect.precedence : Dialect → Precedence
  | .postgres => .postgres
  | .sqlite => .sqlite
  | .mysql => .mysql

/-- An operator whose last operand is not read yet. -/
inductive Pending (α : Type) where
  | not
  | binary (left : α) (op : BinaryOp)

namespace Sign

/-- The operator that the sign stands for between two operands. -/
def binary? : Sign → Option BinaryOp
  | .arith op => some (.arith op)
  | .compare op => some (.compare op)
  | .bars => some .concat
  | _ => none

/-- Whether the sign is a test for NULL. -/
def isNullTest : Sign → Bool
  | .isNull | .isNotNull => true
  | _ => false

end Sign

namespace Algebra

variable (A : Algebra α)

/-- What an operator makes of its two operands. -/
def binary : BinaryOp → α → α → α
  | .arith op => A.arith op
  | .compare op => A.compare op
  | .concat => A.concat

/-- What a test for NULL makes of its operand. It is meant for the signs of such tests only. -/
def nullTest : Sign → α → α
  | .isNotNull => A.isNotNull
  | _ => A.isNull

/-- An operator applied to the operand it was waiting for. -/
def apply : Pending α → α → α
  | .not, x => A.not x
  | .binary left op, x => A.binary op left x

/-- All operators applied, the last one first. -/
def conclude (s : List (Pending α) × α) : α :=
  s.1.foldl (fun x p => A.apply p x) s.2

end Algebra

namespace Precedence

variable (P : Precedence) (A : Algebra α)

/-- How tight the operator binds that waits. -/
def of : Pending α → Nat
  | .not => P.not
  | .binary _ op => P.level op

/-- The operators that bind at the level or tighter applied, the last one first, up to one that does
not. -/
def settle (level : Nat) : List (Pending α) → α → List (Pending α) × α
  | [], x => ([], x)
  | p :: pending, x =>
    if level ≤ P.of p then settle level pending (A.apply p x) else (p :: pending, x)

/-- What waits behind an operand and the operator that follows it. -/
def shift (op : BinaryOp) (s : List (Pending α) × α) : List (Pending α) :=
  let (pending, x) := P.settle A (P.level op) s.1 s.2
  .binary x op :: pending

/-- What a test for NULL that follows an operand makes of it. -/
def test (k : Sign) (s : List (Pending α) × α) : List (Pending α) × α :=
  let (pending, x) := P.settle A P.nullTest s.1 s.2
  (pending, A.nullTest k x)

variable {P : Precedence} {A : Algebra α} {level n : Nat} {p : Pending α} {pending : List (Pending α)}
  {x : α}

/-- An operator that binds as tight is applied. -/
lemma settle_cons (tight : level ≤ P.of p) :
    P.settle A level (p :: pending) x = P.settle A level pending (A.apply p x) :=
  if_pos tight

/-- Operators that bind looser go on waiting. -/
lemma settle_of_lt (looser : ∀ p ∈ pending, P.of p < level) :
    P.settle A level pending x = (pending, x) := by
  cases pending with
  | nil => rfl
  | cons p pending =>
    rw [settle, if_neg]
    exact Nat.not_le.2 (looser p List.mem_cons_self)

/-- Where all operators bind as tight, all of them are applied. -/
lemma settle_of_le (tight : ∀ p ∈ pending, level ≤ P.of p) :
    P.settle A level pending x = ([], A.conclude (pending, x)) := by
  induction pending generalizing x with
  | nil => rfl
  | cons p pending ih =>
    obtain ⟨first, later⟩ := List.forall_mem_cons.1 tight
    rw [settle_cons first, ih later]
    rfl

/-- What a tighter operator has made come to its operands comes to them anyway. -/
lemma settle_settle (le : n ≤ level) (pending : List (Pending α)) (x : α) :
    P.settle A n (P.settle A level pending x).1 (P.settle A level pending x).2 =
      P.settle A n pending x := by
  induction pending generalizing x with
  | nil => rfl
  | cons p pending ih =>
    by_cases tight : level ≤ P.of p
    · rw [settle_cons tight, ih, settle_cons (le.trans tight)]
    · rw [settle, if_neg tight]

/-- Nothing starts to wait. -/
lemma mem_of_mem_settle (mem : p ∈ (P.settle A level pending x).1) : p ∈ pending := by
  induction pending generalizing x with
  | nil => exact mem
  | cons q pending ih =>
    rw [settle] at mem
    split at mem
    · exact List.mem_cons_of_mem q (ih mem)
    · exact mem

/-- What binds looser goes on waiting. -/
lemma mem_settle (looser : P.of p < level) (mem : p ∈ pending) :
    p ∈ (P.settle A level pending x).1 := by
  induction pending generalizing x with
  | nil => cases mem
  | cons q pending ih =>
    rw [settle]
    split
    · rename_i tight
      rcases List.mem_cons.1 mem with rfl | mem
      · exact absurd tight (Nat.not_le.2 looser)
      · exact ih mem
    · exact mem

end Precedence

/-- What is to be read next. -/
inductive Position (α : Type) where
  /-- A column, a marker, or something with parentheses. -/
  | primary
  /-- An operand, behind operators that wait for it. -/
  | operand (pending : List (Pending α))
  /-- What may follow an operand. -/
  | operator (s : List (Pending α) × α)
  /-- Terms with connectives between them, which have to be the given one. -/
  | row (c : Option Connective)
  /-- More arguments of a concatenation. -/
  | arguments (x : α)

/-- No operator follows. -/
def Stops (words : List (Word Value)) : Prop :=
  ∀ k, words.head? = some (.sign k) → k.binary? = none ∧ k.isNullTest = false

/-- No connective follows. -/
def EndsRow (words : List (Word Value)) : Prop :=
  ∀ c, words.head? ≠ some (.sign (.connective c))

/-- From the position on, the words are read as `x` up to `rest`. -/
inductive Reads (P : Precedence) (A : Algebra α) :
    Position α → List (Word Value) → α → List (Word Value) → Prop where
  | column (tableAlias name rest) :
      Reads P A .primary (.column tableAlias name :: rest) (A.column tableAlias name) rest
  | marker (v rest) : Reads P A .primary (.marker v :: rest) (A.literal v) rest
  | parenthesized {words x rest} :
      Reads P A (.row none) words x (.sign .closing :: rest) →
      Reads P A .primary (.sign .opening :: words) x rest
  | power {words x words' y rest} :
      Reads P A (.operand []) words x (.sign .comma :: words') →
      Reads P A (.operand []) words' y (.sign .closing :: rest) →
      Reads P A .primary (.sign .power :: .sign .opening :: words) (A.arith .pow x y) rest
  | concat {words x words' y rest} :
      Reads P A (.operand []) words x words' → Reads P A (.arguments x) words' y rest →
      Reads P A .primary (.sign .concat :: .sign .opening :: words) y rest
  | noArgument (x rest) : Reads P A (.arguments x) (.sign .closing :: rest) x rest
  | argument {x words y words' z rest} :
      Reads P A (.operand []) words y words' → Reads P A (.arguments (A.concat x y)) words' z rest →
      Reads P A (.arguments x) (.sign .comma :: words) z rest
  /-- The word for a connective without parts is a comparison of numbers. -/
  | neutral {c pending words x rest} :
      Reads P A (.operator (P.shift A (.compare .eq) (pending, A.literal (.integer 1)), A.bit c))
        words x rest →
      Reads P A (.operand pending) (.sign (.neutral c) :: words) x rest
  | not {pending words x rest} :
      Reads P A (.operand (.not :: pending)) words x rest →
      Reads P A (.operand pending) (.sign .not :: words) x rest
  | operand {pending words x words' y rest} :
      Reads P A .primary words x words' → Reads P A (.operator (pending, x)) words' y rest →
      Reads P A (.operand pending) words y rest
  | binary {s k op words x rest} :
      k.binary? = some op → Reads P A (.operand (P.shift A op s)) words x rest →
      Reads P A (.operator s) (.sign k :: words) x rest
  | nullTest {s k words x rest} :
      k.isNullTest = true → Reads P A (.operator (P.test A k s)) words x rest →
      Reads P A (.operator s) (.sign k :: words) x rest
  | stop {s rest} : Stops rest → Reads P A (.operator s) rest (A.conclude s) rest
  | lastPart {c words x rest} :
      Reads P A (.operand []) words x rest → EndsRow rest → Reads P A (.row c) words x rest
  | part {c c' words x words' y rest} :
      Reads P A (.operand []) words x (.sign (.connective c') :: words') → (∀ c'' ∈ c, c'' = c') →
      Reads P A (.row (some c')) words' y rest →
      Reads P A (.row c) words (A.connective c' x y) rest

variable {P : Precedence} {A : Algebra α} {position : Position α} {words rest rest' : List (Word Value)}
  {x y : α}

/-- No primary starts with a negation or a comparison of numbers. -/
lemma Reads.of_primary (h : Reads P A .primary words x rest) :
    words.head? ≠ some (.sign .not) ∧ ∀ c, words.head? ≠ some (.sign (.neutral c)) := by
  cases h <;> exact ⟨nofun, fun _ => nofun⟩

/-- No operator between two operands is a test for NULL. -/
lemma Sign.isNullTest_of_binary? {k : Sign} {op : BinaryOp} (h : k.binary? = some op) :
    k.isNullTest = false := by
  cases k with
  | arith | compare | bars => rfl
  | _ => cases h

/-- Words are read in one way, up to one place. -/
theorem Reads.unique (h : Reads P A position words x rest) (h' : Reads P A position words y rest') :
    x = y ∧ rest = rest' := by
  induction h generalizing y rest' with
  | column | marker | noArgument =>
    cases h'
    exact ⟨rfl, rfl⟩
  | parenthesized _ ih =>
    cases h' with
    | parenthesized inner =>
      obtain ⟨rfl, closing⟩ := ih inner
      exact ⟨rfl, List.tail_eq_of_cons_eq closing⟩
  | power _ _ ih ih' =>
    cases h' with
    | power first second =>
      obtain ⟨rfl, comma⟩ := ih first
      obtain rfl := List.tail_eq_of_cons_eq comma
      obtain ⟨rfl, closing⟩ := ih' second
      exact ⟨rfl, List.tail_eq_of_cons_eq closing⟩
  | concat _ _ ih ih' =>
    cases h' with
    | concat first later =>
      obtain ⟨rfl, rfl⟩ := ih first
      exact ih' later
  | argument _ _ ih ih' =>
    cases h' with
    | argument first later =>
      obtain ⟨rfl, rfl⟩ := ih first
      exact ih' later
  | neutral _ ih =>
    cases h' with
    | neutral later => exact ih later
    | operand first => exact absurd rfl (first.of_primary.2 _)
  | not _ ih =>
    cases h' with
    | not inner => exact ih inner
    | operand first => exact absurd rfl first.of_primary.1
  | operand primary _ ih ih' =>
    cases h' with
    | neutral => exact absurd rfl (primary.of_primary.2 _)
    | not => exact absurd rfl primary.of_primary.1
    | operand first later =>
      obtain ⟨rfl, rfl⟩ := ih first
      exact ih' later
  -- behind an operand stands an operator, a test, or neither of these
  | binary isBinary _ ih =>
    cases h' with
    | binary isBinary' later =>
      obtain rfl := Option.some.inj (isBinary.symm.trans isBinary')
      exact ih later
    | nullTest isTest => exact absurd (Sign.isNullTest_of_binary? isBinary) (by simp [isTest])
    | stop stops => exact absurd (stops _ rfl).1 (by simp [isBinary])
  | nullTest isTest _ ih =>
    cases h' with
    | binary isBinary => exact absurd (Sign.isNullTest_of_binary? isBinary) (by simp [isTest])
    | nullTest _ later => exact ih later
    | stop stops => exact absurd (stops _ rfl).2 (by simp [isTest])
  | stop stops =>
    cases h' with
    | binary isBinary => exact absurd (stops _ rfl).1 (by simp [isBinary])
    | nullTest isTest => exact absurd (stops _ rfl).2 (by simp [isTest])
    | stop => exact ⟨rfl, rfl⟩
  -- a row goes on just when a connective follows
  | lastPart _ ends ih =>
    cases h' with
    | lastPart single => exact ih single
    | part first =>
      obtain ⟨-, rfl⟩ := ih first
      exact absurd rfl (ends _)
  | part _ _ _ ih ih' =>
    cases h' with
    | lastPart single ends =>
      obtain ⟨-, rfl⟩ := ih single
      exact absurd rfl (ends _)
    | part first _ later =>
      obtain ⟨rfl, connective⟩ := ih first
      cases connective
      obtain ⟨rfl, rfl⟩ := ih' later
      exact ⟨rfl, rfl⟩

end BoundSql
