import BoundSql.Proofs.Except
import BoundSql.Proofs.Sql.Quoting
import BoundSql.Select.Statement

/-!
# Names in the text

A quoted name can be read off the front of a text: the quotes around it are taken off, and one of each
two quotes in it (`readName?_eq_some_iff`). It is told apart from what follows it, and, as the quotes in
it are doubled from either end, from what stands before it. So the texts that names are put into
determine the names, whatever characters are in them (`names_determined`).
-/

namespace BoundSql

/-- The quoted name that a text starts with, and the rest of the text. -/
def Dialect.readName? (d : Dialect) (text : String) : Option (String × String) :=
  match text.toList with
  | [] => none
  | c :: inside =>
    if c = d.quoteChar then
      (readInside d.quoteChar inside).map fun read => (String.ofList read.1, String.ofList read.2)
    else none

/-- The text can stand behind a quoted name: it does not begin with a quote. -/
def Dialect.CanFollow (d : Dialect) (rest : String) : Prop :=
  rest.toList.head? ≠ some d.quoteChar

instance (d : Dialect) (rest : String) : Decidable (d.CanFollow rest) :=
  inferInstanceAs (Decidable (_ ≠ _))

variable {q : Char} {d : Dialect} {name rest text text' : List Char}

/-- A quoted name that is read is the text up to a quote that no other follows. -/
lemma of_readInside (read : readInside q text = some (name, rest)) :
    text = doubled q name ++ q :: rest ∧ rest.head? ≠ some q := by
  fun_induction readInside q text generalizing name with
  | case1 | case3 => cases read
  | case2 =>
    cases read
    exact ⟨rfl, nofun⟩
  | case4 text ih =>
    obtain ⟨⟨name, rest⟩, inside, eq⟩ := Option.map_eq_some_iff.1 read
    cases eq
    obtain ⟨text_eq, free⟩ := ih inside
    refine ⟨?_, free⟩
    rw [doubled_cons_append, if_pos rfl, ← text_eq]
    rfl
  | case5 c text other =>
    cases read
    exact ⟨rfl, fun eq => other (Option.some.inj eq)⟩
  | case6 c c' text other ih =>
    obtain ⟨⟨name, rest⟩, inside, eq⟩ := Option.map_eq_some_iff.1 read
    cases eq
    obtain ⟨text_eq, free⟩ := ih inside
    refine ⟨?_, free⟩
    rw [doubled_cons_append, if_neg other, ← text_eq]
    rfl

/-- Reading takes exactly the quoted names. -/
theorem readName?_eq_some_iff {text name rest : String} :
    d.readName? text = some (name, rest) ↔
      text = d.quoteName name ++ rest ∧ d.CanFollow rest := by
  have start (name rest : String) : (d.quoteName name ++ rest).toList =
      d.quoteChar :: (doubled d.quoteChar name.toList ++ d.quoteChar :: rest.toList) := by
    rw [String.toList_append, toList_quoteName]
    simp
  constructor
  · intro read
    unfold Dialect.readName? at read
    split at read
    · cases read
    · rename_i c inside eq
      split at read
      · rename_i quote
        obtain ⟨⟨name, rest⟩, inside, eq⟩ := Option.map_eq_some_iff.1 read
        cases eq
        obtain ⟨text_eq, free⟩ := of_readInside inside
        refine ⟨String.toList_injective ?_, by rwa [Dialect.CanFollow, String.toList_ofList]⟩
        rw [start, String.toList_ofList, String.toList_ofList, ← text_eq, ← quote, eq]
      · cases read
  · rintro ⟨rfl, free⟩
    rw [Dialect.readName?, start]
    dsimp only
    rw [if_pos rfl, readInside_doubled free]
    simp

/-- Only quotes are told apart from the end of a name by what is behind them. -/
lemma head?_ne_quoteChar {c : Char} (plain : c ≠ '"' ∧ c ≠ Char.ofNat 96) (text : List Char) :
    (c :: text).head? ≠ some d.quoteChar := by
  intro eq
  cases d with
  | postgres | sqlite => exact plain.1 (Option.some.inj eq)
  | mysql => exact plain.2 (Option.some.inj eq)

/-- A qualified name tells its alias, its name and what follows apart. -/
lemma qualified_append_inj {a a' n n' : String} (free : text.head? ≠ some d.quoteChar)
    (free' : text'.head? ≠ some d.quoteChar)
    (h : (d.quoteName a).toList ++ '.' :: ((d.quoteName n).toList ++ text) =
      (d.quoteName a').toList ++ '.' :: ((d.quoteName n').toList ++ text')) :
    a = a' ∧ n = n' ∧ text = text' := by
  have dot (text : List Char) := head?_ne_quoteChar (c := '.') (d := d) (by decide) text
  obtain ⟨rfl, dotted⟩ := quoteName_append_inj (dot _) (dot _) h
  exact ⟨rfl, quoteName_append_inj free free' (List.tail_eq_of_cons_eq dotted)⟩

/-- Doubling reads the same from the end. -/
lemma reverse_doubled (q : Char) (name : List Char) :
    (doubled q name).reverse = doubled q name.reverse := by
  rw [doubled, doubled, List.reverse_flatMap]
  congr 1
  funext c
  simp only [Function.comp_apply]
  split <;> rfl

/-- From its end a quoted name is that of the name read backwards. -/
lemma reverse_quoteName (d : Dialect) (name : String) :
    (d.quoteName name).toList.reverse = (d.quoteName (String.ofList name.toList.reverse)).toList := by
  rw [toList_quoteName, toList_quoteName, String.toList_ofList, ← reverse_doubled]
  simp

/-- A quoted name and what stands before it are told apart unless that ends with a quote. -/
lemma append_quoteName_inj {n n' : String} (free : text.getLast? ≠ some d.quoteChar)
    (free' : text'.getLast? ≠ some d.quoteChar)
    (h : text ++ (d.quoteName n).toList = text' ++ (d.quoteName n').toList) :
    text = text' ∧ n = n' := by
  have backwards := congrArg List.reverse h
  rw [List.reverse_append, List.reverse_append, reverse_quoteName, reverse_quoteName] at backwards
  rw [← List.head?_reverse] at free free'
  obtain ⟨names, texts⟩ := quoteName_append_inj free free' backwards
  refine ⟨List.reverse_injective texts, String.toList_injective (List.reverse_injective ?_)⟩
  exact String.ofList_injective names

namespace Join

variable {j j' : Join}

/-- The alias of the joined table, where it has one of its own. -/
def aliasText (d : Dialect) (j : Join) : List Char :=
  if j.tableAlias = j.store then [] else ' ' :: (d.quoteName j.tableAlias).toList

/-- The columns that the join compares, up to its end. -/
def onText (d : Dialect) (j : Join) : List Char :=
  (d.quoteName j.parent).toList ++ '.' :: ((d.quoteName j.parentColumn).toList ++ ' ' :: '=' :: ' ' ::
    ((d.quoteName j.tableAlias).toList ++ '.' :: ((d.quoteName j.targetColumn).toList ++ [')'])))

/-- A join is its keywords, its table, its alias and its condition. -/
lemma toList_render (d : Dialect) (j : Join) :
    (j.render d).toList = j.kind.keywords.toList ++ ' ' :: ((d.quoteName j.store).toList ++
      (j.aliasText d ++ ' ' :: 'O' :: 'N' :: ' ' :: '(' :: j.onText d)) := by
  have on : " ON (".toList = [' ', 'O', 'N', ' ', '('] := by decide
  have equals : " = ".toList = [' ', '=', ' '] := by decide
  have blank : " ".toList = [' '] := by decide
  have dot : ".".toList = ['.'] := by decide
  have closing : ")".toList = [')'] := by decide
  rw [render, aliasText, onText]
  split <;> simp [on, equals, blank, dot, closing]

/-- The keywords of a join tell its kind. -/
lemma keywords_append_inj {k k' : JoinKind}
    (h : k.keywords.toList ++ text = k'.keywords.toList ++ text') : k = k' ∧ text = text' := by
  have inner : JoinKind.inner.keywords.toList = 'I' :: "NNER JOIN".toList := by decide
  have outer : JoinKind.leftOuter.keywords.toList = 'L' :: "EFT OUTER JOIN".toList := by decide
  cases k <;> cases k'
  · exact ⟨rfl, List.append_cancel_left h⟩
  · rw [inner, outer] at h
    cases h
  · rw [inner, outer] at h
    cases h
  · exact ⟨rfl, List.append_cancel_left h⟩

/-- Behind the table stands its alias, or the condition if it has none. -/
lemma aliasText_append_inj (store : j.store = j'.store)
    (h : j.aliasText d ++ ' ' :: 'O' :: text = j'.aliasText d ++ ' ' :: 'O' :: text') :
    j.tableAlias = j'.tableAlias ∧ text = text' := by
  have letter (text : List Char) := head?_ne_quoteChar (c := 'O') (d := d) (by decide) text
  have blank (text : List Char) := head?_ne_quoteChar (c := ' ') (d := d) (by decide) text
  have opens (name : String) (text : List Char) :
      ((d.quoteName name).toList ++ text).head? = some d.quoteChar := by
    rw [toList_quoteName]
    rfl
  unfold aliasText at h
  split at h <;> split at h
  · rename_i own own'
    exact ⟨by rw [own, own', store], List.tail_eq_of_cons_eq (List.tail_eq_of_cons_eq h)⟩
  · have same : 'O' :: text = _ := List.tail_eq_of_cons_eq h
    exact absurd (same ▸ opens _ _) (letter text)
  · have same : _ = 'O' :: text' := List.tail_eq_of_cons_eq h
    exact absurd (same ▸ opens _ _) (letter text')
  · obtain ⟨eq, rest⟩ := quoteName_append_inj (blank _) (blank _) (List.tail_eq_of_cons_eq h)
    exact ⟨eq, List.tail_eq_of_cons_eq (List.tail_eq_of_cons_eq rest)⟩

/-- The condition of a join tells both of its columns and their tables. -/
lemma onText_append_inj (h : j.onText d ++ text = j'.onText d ++ text') :
    j.parent = j'.parent ∧ j.parentColumn = j'.parentColumn ∧ j.tableAlias = j'.tableAlias ∧
      j.targetColumn = j'.targetColumn ∧ text = text' := by
  have blank (text : List Char) := head?_ne_quoteChar (c := ' ') (d := d) (by decide) text
  have closing (text : List Char) := head?_ne_quoteChar (c := ')') (d := d) (by decide) text
  simp only [onText, List.append_assoc, List.cons_append, List.nil_append] at h
  obtain ⟨parent, parentColumn, rest⟩ := qualified_append_inj (blank _) (blank _) h
  simp only [List.cons.injEq, true_and] at rest
  obtain ⟨tableAlias, targetColumn, rest⟩ := qualified_append_inj (closing _) (closing _) rest
  exact ⟨parent, parentColumn, tableAlias, targetColumn, List.tail_eq_of_cons_eq rest⟩

/-- A join is told from its text up to the name of its table in the catalog, whatever follows it. -/
lemma render_append_inj (h : (j.render d).toList ++ text = (j'.render d).toList ++ text') :
    { j with table := j'.table } = j' ∧ text = text' := by
  have blank (text : List Char) := head?_ne_quoteChar (c := ' ') (d := d) (by decide) text
  have blank' (j : Join) (text : List Char) :
      (j.aliasText d ++ ' ' :: text).head? ≠ some d.quoteChar := by
    unfold aliasText
    split
    · exact blank _
    · exact blank _
  rw [toList_render, toList_render] at h
  simp only [List.append_assoc, List.cons_append] at h
  obtain ⟨kind, rest⟩ := keywords_append_inj h
  obtain ⟨store, rest⟩ := quoteName_append_inj (blank' j _) (blank' j' _) (List.tail_eq_of_cons_eq rest)
  obtain ⟨-, rest⟩ := aliasText_append_inj store rest
  simp only [List.cons.injEq, true_and] at rest
  obtain ⟨parent, parentColumn, tableAlias, targetColumn, rest⟩ := onText_append_inj rest
  refine ⟨?_, rest⟩
  cases j
  cases j'
  simp_all

end Join

/-- Without a rule of its own for columns, a dialect writes a column as its two names. -/
lemma Renderer.render_column_of_get?_none {r : Renderer} (plain : r.overrides.get? r.dialect "Col" = none)
    (tableAlias name : String) (type : Option SqlType) :
    r.render (.column tableAlias name type) =
      .ok (.raw (r.dialect.quoteName tableAlias ++ "." ++ r.dialect.quoteName name)) := by
  have noRule : r.overrides.get? r.dialect (Expr.column tableAlias name type).kind = none := plain
  rw [render_eq_generic noRule]
  rfl

/-- A selected text tells the name and the text of the expression apart. -/
lemma Select.renderNamed_append_inj {r : Renderer} {named named' : String × Expr} {a a' : Fragment}
    (run : renderNamed r named = .ok a) (run' : renderNamed r named' = .ok a') (same : a.sql = a'.sql) :
    named.1 = named'.1 ∧ ∃ b b', r.render named.2 = .ok b ∧ r.render named'.2 = .ok b' ∧ b.sql = b'.sql := by
  obtain ⟨b, first, run⟩ := except_bind_ok run
  obtain ⟨b', first', run'⟩ := except_bind_ok run'
  cases run
  cases run'
  have sql := congrArg String.toList same
  simp only [Fragment.mapSql, String.toList_append] at sql
  have as : " AS ".toList = [' ', 'A', 'S'] ++ [' '] := by decide
  have blank (text : List Char) : (text ++ " AS ".toList).getLast? ≠ some r.dialect.quoteChar := by
    rw [as, ← List.append_assoc, List.getLast?_concat]
    exact head?_ne_quoteChar (by decide) []
  obtain ⟨texts, names⟩ := append_quoteName_inj (blank _) (blank _) sql
  exact ⟨names, b, b', first, first', String.toList_injective (List.append_cancel_right texts)⟩

/-- Quoted names can be read back, and whatever a quoted name is put into tells which name it is. A
reader takes exactly the texts that start with a quoted name and go on without a quote, so it recovers
every name, and two such texts are equal only if their names and their rests are. The texts of columns,
of aliases and of joins are equal only if the names in them are. A join does not show the name of its
table in the catalog. -/
theorem names_determined (r : Renderer) :
    (∀ text name rest, r.dialect.readName? text = some (name, rest) ↔
      text = r.dialect.quoteName name ++ rest ∧ r.dialect.CanFollow rest) ∧
    (∀ name, r.dialect.readName? (r.dialect.quoteName name) = some (name, "")) ∧
    (∀ name name' rest rest', r.dialect.CanFollow rest → r.dialect.CanFollow rest' →
      r.dialect.quoteName name ++ rest = r.dialect.quoteName name' ++ rest' →
      name = name' ∧ rest = rest') ∧
    (r.overrides.get? r.dialect "Col" = none → ∀ tableAlias name type tableAlias' name' type',
      ∃ c c', r.render (.column tableAlias name type) = .ok c ∧
        r.render (.column tableAlias' name' type') = .ok c' ∧
        ∀ rest rest', r.dialect.CanFollow rest → r.dialect.CanFollow rest' →
          c.sql ++ rest = c'.sql ++ rest' → tableAlias = tableAlias' ∧ name = name' ∧ rest = rest') ∧
    (∀ named named' a a', Select.renderNamed r named = .ok a → Select.renderNamed r named' = .ok a' →
      a.sql = a'.sql → named.1 = named'.1 ∧
        ∃ b b', r.render named.2 = .ok b ∧ r.render named'.2 = .ok b' ∧ b.sql = b'.sql) ∧
    ∀ (j j' : Join) rest rest', j.render r.dialect ++ rest = j'.render r.dialect ++ rest' →
      { j with table := j'.table } = j' ∧ rest = rest' := by
  refine ⟨fun text name rest => readName?_eq_some_iff, fun name => ?_,
    fun name name' rest rest' free free' same => ?_,
    fun plain tableAlias name type tableAlias' name' type' => ?_,
    fun named named' a a' => Select.renderNamed_append_inj, fun j j' rest rest' same => ?_⟩
  · exact readName?_eq_some_iff.2 ⟨String.append_empty.symm, nofun⟩
  · have texts := congrArg String.toList same
    rw [String.toList_append, String.toList_append] at texts
    obtain ⟨eq, rests⟩ := quoteName_append_inj free free' texts
    exact ⟨eq, String.toList_injective rests⟩
  · refine ⟨_, _, Renderer.render_column_of_get?_none plain _ _ _,
      Renderer.render_column_of_get?_none plain _ _ _, fun rest rest' free free' same => ?_⟩
    have dot : ".".toList = ['.'] := by decide
    have texts := congrArg String.toList same
    simp only [Fragment.raw, String.toList_append, dot, List.append_assoc, List.cons_append,
      List.nil_append] at texts
    obtain ⟨aliases, names, rests⟩ := qualified_append_inj free free' texts
    exact ⟨aliases, names, String.toList_injective rests⟩
  · have texts := congrArg String.toList same
    rw [String.toList_append, String.toList_append] at texts
    obtain ⟨eq, rests⟩ := Join.render_append_inj texts
    exact ⟨eq, String.toList_injective rests⟩

/-- A name that is a quote is read back, and quotes and dots in names do not move the border between a
table and its column. -/
theorem names_determined_quotes :
    let r := Renderer.standard .sqlite
    r.dialect.readName? "\"\"\"\" AS" = some ("\"", " AS") ∧
      ∃ c c', r.render (.column "a\".\"b" "c" none) = .ok c ∧
        r.render (.column "a" "b\".\"c" none) = .ok c' ∧ c.sql ≠ c'.sql := by
  intro r
  obtain ⟨reads, -, -, columns, -⟩ := names_determined r
  have follows : r.dialect.CanFollow " AS" := by decide
  have ends : r.dialect.CanFollow "" := by decide
  obtain ⟨c, c', run, run', apart⟩ := columns rfl "a\".\"b" "c" none "a" "b\".\"c" none
  refine ⟨(reads _ _ _).2 ⟨by decide, follows⟩, c, c', run, run', fun same => ?_⟩
  have eq := (apart "" "" ends ends (congrArg (· ++ "") same)).1
  exact absurd eq (by decide)

end BoundSql
