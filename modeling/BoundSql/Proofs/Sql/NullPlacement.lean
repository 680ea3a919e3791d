import BoundSql.Proofs.Sql.Course

/-!
# Where NULL is placed

MySQL places NULL by a sort key of its own: the text of what is sorted by, with a test for NULL behind
it. A test binds like a comparison, from left to right, so it takes all of a term but for a negation,
which binds looser and takes the test as well. So the leading key tests what the second one sorts by
exactly when no negation stands outside of parentheses, and then NULL is placed as asked for
(`null_placement_iff`). Of a negated predicate the test is negated, which places NULL at the other end
(`null_placement_reversed`).
-/

namespace BoundSql

/-- The test whose result sorts NULL to the end that is asked for. -/
def NullPlacement.test : NullPlacement → Sign
  | .first => .isNotNull
  | _ => .isNull

variable {α : Type}

/-- The words are read as sort keys, each with its direction. -/
inductive ReadsKeys (P : Precedence) (A : Algebra α) :
    List (Word Value) → List (α × SortDirection) → Prop where
  | last {words x} (direction : Option SortDirection) :
      Reads P A (.operand []) words x (direction.toList.map fun d => .sign (.direction d)) →
      ReadsKeys P A words [(x, direction.getD .ascending)]
  | more {words x words' keys} (direction : Option SortDirection) :
      Reads P A (.operand []) words x
        (direction.toList.map (fun d => .sign (.direction d)) ++ .sign .comma :: words') →
      ReadsKeys P A words' keys → ReadsKeys P A words ((x, direction.getD .ascending) :: keys)

/-- The text is read as the sort keys. -/
def Fragment.SortsBy (P : Precedence) (A : Algebra α) (d : Dialect) (a : Fragment)
    (keys : List (α × SortDirection)) : Prop :=
  ∃ ws, a.Spelled .verbatim d ws ∧ ReadsKeys P A ws keys

/-- A row with the first keys comes before one with the second keys. -/
def Precedes (before : α → α → Prop) : List (α × SortDirection) → List (α × SortDirection) → Prop
  | (x, direction) :: keys, (y, _) :: keys' =>
    (match direction with
      | .ascending => before x y
      | .descending => before y x) ∨ x = y ∧ Precedes before keys keys'
  | _, _ => False

namespace Algebra

/-- The columns have the values of a row. -/
def onRow (A : Algebra α) (row : String → String → α) : Algebra α :=
  { A with column := row }

/-- The tests tell which values are NULL, false coming before true. -/
def TestsNull (A : Algebra α) (null : α → Prop) (before : α → α → Prop) : Prop :=
  ∀ x y, null x → ¬ null y →
    before (A.isNull y) (A.isNull x) ∧ before (A.isNotNull x) (A.isNotNull y)

end Algebra

variable {P : Precedence} {A : Algebra α} {d : Dialect} {a key : Fragment} {e : Expr} {t : Course α}
  {ws words : List (Word Value)} {x y : α} {keys keys' : List (α × SortDirection)} {level : Nat}
  {pending : List (Pending α)} {direction : SortDirection} {nulls : NullPlacement}

/-- Sort keys are read in one way. -/
theorem ReadsKeys.unique (h : ReadsKeys P A words keys) (h' : ReadsKeys P A words keys') :
    keys = keys' := by
  induction h generalizing keys' with
  | last direction reads =>
    cases h' with
    | last direction' reads' =>
      obtain ⟨rfl, same⟩ := reads.unique reads'
      cases direction <;> cases direction' <;> cases same <;> rfl
    | more direction' reads' =>
      obtain ⟨-, same⟩ := reads.unique reads'
      cases direction <;> cases direction' <;> cases same
  | more direction reads _ ih =>
    cases h' with
    | last direction' reads' =>
      obtain ⟨-, same⟩ := reads.unique reads'
      cases direction <;> cases direction' <;> cases same
    | more direction' reads' later =>
      obtain ⟨rfl, same⟩ := reads.unique reads'
      cases direction <;> cases direction' <;> cases same <;> rw [ih later]

namespace Fragment

/-- A sign behind a fragment is spelled behind its words. -/
lemma Spelled.append (h : a.Spelled .verbatim d ws) (k : Sign) :
    (a.mapSql (· ++ k.text)).Spelled .verbatim d (ws ++ [.sign k]) where
  text := by
    rw [mapSql, String.toList_append, h.text, List.flatMap_append, List.flatMap_singleton]
    rfl
  bound := by
    rw [List.flatMap_append]
    exact h.bound.trans (List.append_nil _).symm
  apart := by
    refine h.apart.append (List.isChain_singleton _) fun w _ w' next _ => ?_
    cases next
    rfl

/-- A test behind a fragment applies to what it takes of the course. -/
lemma Says.tested (h : a.Says P A d t) {k : Sign} (isTest : k.isNullTest = true) :
    ∃ ws, (a.mapSql (· ++ k.text)).Spelled .verbatim d ws ∧ ∀ rest, Stops rest →
      Reads P A (.operand []) (ws ++ rest) (A.conclude (P.test A k (t []))) rest := by
  obtain ⟨ws, spelled, reads⟩ := h
  refine ⟨_, spelled.append k, fun rest stops => ?_⟩
  rw [List.append_assoc]
  exact reads (.nullTest isTest (.stop stops))

/-- With NULL placed, MySQL sorts by the test and then by what is tested. -/
lemma Says.sorted (h : a.Says P A d t) (direction : SortDirection) (stated : nulls ≠ .unspecified) :
    (Fragment.sorted .mysql direction nulls a).SortsBy P A d
      [(A.conclude (P.test A nulls.test (t [])), .ascending), (t.value A, direction)] := by
  have isTest : nulls.test.isNullTest = true := by cases nulls <;> rfl
  obtain ⟨us, spelled, tested⟩ := h.tested isTest
  obtain ⟨ws, spelled', reads⟩ := h.reads
  have text : Fragment.sorted .mysql direction nulls a = join Sign.comma.text
      [a.mapSql (· ++ nulls.test.text), a.mapSql (· ++ (Sign.direction direction).text)] := by
    have keyword : a.mapSql (· ++ " " ++ direction.keyword) =
        a.mapSql (· ++ (Sign.direction direction).text) :=
      congrArg (Fragment.mk · a.params) String.append_assoc
    cases nulls with
    | unspecified => contradiction
    | first | last => exact congrArg (fun b => join ", " [_, b]) keyword
  rw [text]
  refine ⟨_, spelled.pair (spelled'.append _) .comma, ?_⟩
  exact .more none (tested _ (stops_sign rfl rfl)) (.last (some direction) (reads _ (stops_sign rfl rfl)))

/-- A fragment sorts by one list of keys. -/
lemma SortsBy.unique (h : a.SortsBy P A d keys) (h' : a.SortsBy P A d keys') : keys = keys' := by
  obtain ⟨ws, spelled, reads⟩ := h
  obtain ⟨us, spelled', reads'⟩ := h'
  obtain rfl := spelled.unique spelled'
  exact reads.unique reads'

end Fragment

namespace Precedence

/-- The operators between operands bind at least as tight as a test. -/
lemma nullTest_le_level (op : BinaryOp) : mysql.nullTest ≤ mysql.level op := by
  cases op with
  | arith op => cases op <;> decide
  | compare => exact le_refl 1
  | concat => decide

end Precedence

/-- A test takes all of a term without negations outside of parentheses. -/
lemma test_course (h : e.IsTerm) (plain : e.negatesBare d = false) (k : Sign) :
    A.conclude (Precedence.mysql.test A k (e.course .mysql A d [])) =
      A.nullTest k ((e.course .mysql A d).value A) := by
  have waiting : (e.course .mysql A d).Leads
      (fun pending => ∀ p ∈ pending, Precedence.mysql.nullTest ≤ Precedence.mysql.of p)
      (fun pending => ∀ p ∈ pending, Precedence.mysql.nullTest ≤ Precedence.mysql.of p) := by
    refine leads_course_of_plain h plain fun op s holds p mem => ?_
    rcases List.mem_cons.1 mem with rfl | mem
    · exact Precedence.nullTest_le_level op
    · exact holds p (Precedence.mem_of_mem_settle mem)
  rw [Precedence.test, Precedence.settle_of_le (waiting [] nofun)]
  rfl

/-- No operator makes a negation come to its operand. -/
lemma not_mem_shift (op : BinaryOp) (s : List (Pending α) × α) (mem : .not ∈ s.1) :
    .not ∈ Precedence.mysql.shift A op s :=
  List.mem_cons_of_mem _ <|
    Precedence.mem_settle (Nat.lt_of_lt_of_le Nat.zero_lt_one (Precedence.nullTest_le_level op)) mem

open Course in
/-- A negation outside of parentheses waits until the end of the term. -/
lemma not_mem_course (h : e.IsTerm) (bare : e.negatesBare d = true) :
    (e.course .mysql A d).Leads (fun _ => True) (.not ∈ ·) := by
  have stays {s : Expr} (term : s.IsTerm) : (s.course .mysql A d).Leads (.not ∈ ·) (.not ∈ ·) :=
    leads_course term not_mem_shift fun _ _ mem => List.mem_cons_of_mem _ mem
  have anyway (t : Course α) : t.Leads (fun _ => True) fun _ => True := fun _ _ => trivial
  induction h with
  | column | literal => cases bare
  | @arith left right op type termL termR ihl ihr =>
    rw [Expr.negatesBare_arith] at bare
    obtain ⟨infixed, bare⟩ := Bool.and_eq_true_iff.1 bare
    have operand {s : Expr} (plain : s.isArithmetic = false) (t : Course α) : operand A s t = t := by
      rw [Course.operand, plain]
      rfl
    rw [Expr.course_arith, if_neg (of_decide_eq_false ((Bool.not_eq_true' _).mp infixed))]
    -- the negation starts to wait in one of the operands, and what comes after that leaves it waiting
    rcases Bool.or_eq_true_iff.1 bare with bare | bare
    · obtain ⟨plain, bare⟩ := Bool.and_eq_true_iff.1 bare
      rw [operand (by simpa using plain)]
      exact (ihl bare).between (not_mem_shift _) (.operand fun _ => stays termR)
    · obtain ⟨plain, bare⟩ := Bool.and_eq_true_iff.1 bare
      rw [operand (s := right) (by simpa using plain)]
      exact (anyway _).between (fun _ _ => trivial) (ihr bare)
  | compare op termL termR ihl ihr =>
    rw [Expr.negatesBare_compare] at bare
    rw [Expr.course_compare]
    rcases Bool.or_eq_true_iff.1 bare with bare | bare
    · exact (ihl bare).between (not_mem_shift _) (stays termR)
    · exact (anyway _).between (fun _ _ => trivial) (ihr bare)
  | @logic parts c negated _ ih =>
    rw [Expr.negatesBare_logic] at bare
    rw [Expr.course_logic]
    cases negated with
    | true => exact fun pending _ => List.mem_cons_self
    | false =>
      rcases parts with _ | ⟨p, _ | ⟨q, parts⟩⟩
      · cases bare
      · exact ih p List.mem_cons_self bare
      · cases bare
  | ref _ _ ih | typed _ _ ih => exact ih bare

/-- True is what a test gives, and nothing else. -/
def onlyTests : Algebra Bool where
  column _ _ := false
  literal _ := false
  arith _ _ _ := false
  compare _ _ _ := false
  connective _ _ _ := false
  not _ := false
  concat _ _ := false
  isNull _ := true
  isNotNull _ := true
  other _ := false

/-- Where an operator waits, the outermost one is not a test for NULL. -/
lemma conclude_onlyTests {pending : List (Pending Bool)} (some_pending : pending ≠ []) (x : Bool) :
    onlyTests.conclude (pending, x) = false := by
  have applied (p : Pending Bool) (x : Bool) : onlyTests.apply p x = false := by
    rcases p with _ | ⟨_, _ | _ | _⟩ <;> rfl
  induction pending generalizing x with
  | nil => contradiction
  | cons p pending ih =>
    show onlyTests.conclude (pending, onlyTests.apply p x) = false
    cases pending with
    | nil => exact applied p x
    | cons q pending => exact ih (List.cons_ne_nil q pending) _

/-- A negation outside of parentheses takes the test as well. -/
lemma conclude_test_onlyTests (h : e.IsTerm) (bare : e.negatesBare d = true) (k : Sign) :
    onlyTests.conclude (Precedence.mysql.test onlyTests k (e.course .mysql onlyTests d [])) = false := by
  have looser : Precedence.mysql.of (.not : Pending Bool) < Precedence.mysql.nullTest := Nat.zero_lt_one
  have waiting : .not ∈ (e.course .mysql onlyTests d []).1 := not_mem_course h bare [] trivial
  exact conclude_onlyTests (List.ne_nil_of_mem (Precedence.mem_settle looser waiting)) _

/-- Of a negated predicate the test is negated, and not the predicate tested. -/
lemma Fragment.Says.sorted_negated (h : a.Says .mysql A d (.negated x)) (direction : SortDirection)
    (stated : nulls ≠ .unspecified) :
    (Fragment.sorted .mysql direction nulls a).SortsBy .mysql A d
      [(A.not (A.nullTest nulls.test x), .ascending), (A.not x, direction)] :=
  h.sorted direction stated

/-- With NULL placed, the leading key of MySQL tests what the second one sorts by, whatever columns,
bound values and operators stand for, exactly when the term has no negation outside of parentheses.
Then of two rows one of which has NULL there, that one comes last or first as asked for, in either
direction. -/
theorem null_placement_iff (term : e.IsTerm) (stated : nulls ≠ .unspecified)
    (run : (Renderer.standard .mysql).render (.sorted e direction nulls) = .ok a) :
    ∃ key, (Renderer.standard .mysql).render e = .ok key ∧
      ((∀ (α : Type) (A : Algebra α), ∃ x, key.Means .mysql A .mysql x ∧
        a.SortsBy .mysql A .mysql [(A.nullTest nulls.test x, .ascending), (x, direction)]) ↔
          e.negatesBare .mysql = false) ∧
      (e.negatesBare .mysql = false →
        ∀ (α : Type) (A : Algebra α) (null : α → Prop) (before : α → α → Prop), A.TestsNull null before →
          ∀ (row row' : String → String → α) (x x' : α), key.Means .mysql (A.onRow row) .mysql x →
            key.Means .mysql (A.onRow row') .mysql x' → null x → ¬ null x' →
            ∃ keys keys', a.SortsBy .mysql (A.onRow row) .mysql keys ∧
              a.SortsBy .mysql (A.onRow row') .mysql keys' ∧
              (nulls = .last → Precedes before keys' keys) ∧
              (nulls = .first → Precedes before keys keys')) := by
  obtain ⟨expressible, rfl⟩ := Renderer.render_eq_ok_iff.1 run
  have source := (Expr.throughout_iff.1 expressible).2 e List.mem_cons_self
  have read {α : Type} (A : Algebra α) := says_term term .mysql A .mysql
  have text : (Expr.sorted e direction nulls).fold (Expr.assemble .mysql) =
      .sorted .mysql direction nulls (e.fold (Expr.assemble .mysql)) := Expr.fold_eq _ _
  rw [text]
  have covered (plain : e.negatesBare .mysql = false) {α : Type} (A : Algebra α) :=
    test_course (A := A) term plain nulls.test ▸ (read A).sorted direction stated
  refine ⟨_, Renderer.render_eq_ok_iff.2 ⟨source, rfl⟩, ⟨fun all => ?_, fun plain α A => ?_⟩, ?_⟩
  -- where a test is all that is true, a bare negation shows, since it takes the test as well
  · obtain ⟨x, -, sorts⟩ := all Bool onlyTests
    have first := congrArg Prod.fst
      (List.cons.inj (sorts.unique ((read onlyTests).sorted direction stated))).1
    by_contra bare
    rw [conclude_test_onlyTests term (Bool.not_eq_false _ ▸ bare)] at first
    cases nulls <;> cases first
  · exact ⟨_, (read A).means, covered plain A⟩
  · intro plain α A null before tests row row' x x' means means' isNull notNull
    obtain rfl := means.unique (read _).means
    obtain rfl := means'.unique (read _).means
    refine ⟨_, _, covered plain _, covered plain _, ?_, ?_⟩
    · rintro rfl
      exact .inl (tests _ _ isNull notNull).1
    · rintro rfl
      exact .inl (tests _ _ isNull notNull).2

/-- Truth values are compared and tested as usual, where a comparison with a bound value is as true as
what is compared. -/
def truths : Algebra Truth where
  column _ _ := .unknown
  literal _ := .yes
  arith _ x _ := x
  compare
    | .eq, x, y => x.and y |>.or (x.not.and y.not)
    | _, x, _ => x
  connective
    | .and, x, y => x.and y
    | .or, x, y => x.or y
  not := .not
  concat x _ := x
  isNull x := if x = .unknown then .yes else .no
  isNotNull x := if x = .unknown then .no else .yes
  other _ := .unknown

/-- Two predicates compared, under a name. -/
def aboveAsOld : Expr :=
  let above := Expr.compare (.column "T2" "pay" (some .integer)) .gt (.literal (.integer 1) none)
  .ref "above" (.compare above .eq (.logic .or [above, .column "T2" "old" none] false))

/-- The test takes both comparisons, and a row without an answer comes first. -/
theorem null_placement_iff_aboveAsOld :
    ∃ a key, (Renderer.standard .mysql).render (.sorted aboveAsOld .descending .first) = .ok a ∧
      a.sql = "`T2`.`pay` > ? = (`T2`.`pay` > ? OR `T2`.`old`) IS NOT NULL, " ++
        "`T2`.`pay` > ? = (`T2`.`pay` > ? OR `T2`.`old`) DESC" ∧
      (Renderer.standard .mysql).render aboveAsOld = .ok key ∧
      (∃ x, key.Means .mysql truths .mysql x ∧
        a.SortsBy .mysql truths .mysql [(truths.isNotNull x, .ascending), (x, .descending)]) ∧
      ∃ keys keys', a.SortsBy .mysql (truths.onRow fun _ _ => .unknown) .mysql keys ∧
        a.SortsBy .mysql (truths.onRow fun _ _ => .yes) .mysql keys' ∧
        Precedes (fun t u => t = .no ∧ u = .yes) keys keys' := by
  have above := (Expr.IsTerm.column "T2" "pay" (some .integer)).compare .gt
    (.literal (.integer 1) none)
  have either := Expr.IsTerm.logic .or false <|
    List.forall_mem_cons.2 ⟨above, List.forall_mem_singleton.2 (.column "T2" "old" none)⟩
  have term : aboveAsOld.IsTerm := (above.compare .eq either).ref "above"
  obtain ⟨a, run⟩ : ∃ a, (Renderer.standard .mysql).render (.sorted aboveAsOld .descending .first) = .ok a :=
    ⟨_, rfl⟩
  obtain ⟨key, written, covered, placed⟩ := null_placement_iff term (by decide) run
  have tests : truths.TestsNull (· = .unknown) fun t u => t = .no ∧ u = .yes := by
    intro x y null notNull
    subst null
    cases y with
    | unknown => contradiction
    | yes | no => exact ⟨⟨rfl, rfl⟩, ⟨rfl, rfl⟩⟩
  have means (A : Algebra Truth) := (says_term term .mysql A .mysql).means
  obtain ⟨-, same⟩ := Renderer.render_eq_ok_iff.1 written
  rw [← same] at means
  obtain ⟨keys, keys', sorts, sorts', -, first⟩ := placed rfl Truth truths _ _ tests (fun _ _ => .unknown)
    (fun _ _ => .yes) _ _ (means _) (means _) rfl (by decide)
  refine ⟨a, key, run, ?_, written, covered.2 rfl Truth truths, keys, keys', sorts, sorts', first rfl⟩
  cases run
  rfl

/-- The leading key does not test a negated predicate that the second one sorts by, and a row in which
that is unknown comes first where it should come last. -/
theorem null_placement_reversed :
    (¬ ∀ (e : Expr) (direction : SortDirection) (nulls : NullPlacement) (a key : Fragment), e.IsTerm →
      nulls ≠ .unspecified → (Renderer.standard .mysql).render (.sorted e direction nulls) = .ok a →
      (Renderer.standard .mysql).render e = .ok key →
      ∀ (α : Type) (A : Algebra α) (x : α), key.Means .mysql A .mysql x →
        a.SortsBy .mysql A .mysql [(A.nullTest nulls.test x, .ascending), (x, direction)]) ∧
    ∃ (a key : Fragment) (keys keys' : List (Truth × SortDirection)),
      let e := (Expr.compare (.column "T2" "pay" none) .gt (.literal (.integer 1) none)).negate
      (Renderer.standard .mysql).render (.sorted e .ascending .last) = .ok a ∧
        (Renderer.standard .mysql).render e = .ok key ∧
        key.Means .mysql (truths.onRow fun _ _ => .unknown) .mysql .unknown ∧
        key.Means .mysql (truths.onRow fun _ _ => .yes) .mysql .no ∧
        a.SortsBy .mysql (truths.onRow fun _ _ => .unknown) .mysql keys ∧
        a.SortsBy .mysql (truths.onRow fun _ _ => .yes) .mysql keys' ∧
        Precedes (fun t u => t = .no ∧ u = .yes) keys keys' := by
  have above := (Expr.IsTerm.column "T2" "pay" none).compare .gt (.literal (.integer 1) none)
  have term := Expr.IsTerm.logic .and true (List.forall_mem_singleton.2 above)
  have read (A : Algebra Truth) := says_term term .mysql A .mysql
  have stated : NullPlacement.last ≠ .unspecified := by decide
  have sorts (A : Algebra Truth) := (read A).sorted_negated .ascending stated
  constructor
  · intro claim
    have tested := claim _ .ascending .last _ _ term (by decide) rfl rfl Truth truths .unknown
      (read truths).means
    cases tested.unique (sorts truths)
  · exact ⟨_, _, _, _, rfl, rfl, (read _).means, (read _).means, sorts _, sorts _, .inl ⟨rfl, rfl⟩⟩

end BoundSql
