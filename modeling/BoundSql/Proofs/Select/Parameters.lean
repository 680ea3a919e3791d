import BoundSql.Proofs.Select.Statement
import BoundSql.Proofs.Sql.Numbering
import BoundSql.Proofs.Sql.Rendering

/-!
# Parameters of statements

A statement has one marker outside of quotes for each of its parameters, whatever the tables, columns
and aliases are called, and its numbered form replaces them by `$1`, `$2` and so on in order
(`parameters_correspond`). What is asked is that the texts of calls are plain. A sign of numbered
markers in such a text is copied as it is (`dollars_differ`).
-/

namespace BoundSql.Select

open Fragment

variable {d : Dialect} {strict : Bool} {s : Select} {a : Fragment} {es : List Expr}

/-- A row of rendered trees has one marker for each parameter. -/
lemma marked_renderList {separator : String} (plain : Plain strict separator)
    (calls : ∀ e ∈ es, e.Throughout (Expr.PlainCalls strict))
    (run : (Renderer.standard d).renderList separator es = .ok a) : a.Marked d strict := by
  obtain ⟨parts, parts_ok, run⟩ := except_bind_ok run
  cases run
  apply marked_join plain
  intro b mem
  obtain ⟨e, source, ok⟩ := except_mem_of_mapM_ok parts_ok mem
  exact marked_render (calls e source) ok

/-- A clause over expressions. -/
lemma marked_renderClause {keyword separator : String} (keywordPlain : Plain strict keyword)
    (plain : Plain strict separator) (calls : ∀ e ∈ es, e.Throughout (Expr.PlainCalls strict))
    (run : renderClause (Renderer.standard d) keyword separator es = .ok a) :
    a.Marked d strict := by
  rw [renderClause] at run
  split at run
  · cases run
    exact plain_empty.written
  · obtain ⟨body, body_ok, run⟩ := except_bind_ok run
    cases run
    have body := marked_renderList plain calls body_ok
    exact body.prepend ((plain_blank.append keywordPlain).append plain_blank).written

/-- A tree rendered under a name has one marker for each parameter. -/
lemma marked_renderNamed {named : String × Expr}
    (calls : named.2.Throughout (Expr.PlainCalls strict))
    (run : renderNamed (Renderer.standard d) named = .ok a) : a.Marked d strict := by
  obtain ⟨body, body_ok, run⟩ := except_bind_ok run
  cases run
  have as : Plain strict " AS " := plain_of_strict (by decide)
  have body := marked_render calls body_ok
  exact (body.extend as.written).extend (written_quoteName d strict named.1)

/-- A join binds nothing. -/
lemma written_renderJoin (d : Dialect) (strict : Bool) (j : Join) :
    Written d strict 0 (j.render d) := by
  have keywords : Plain strict j.kind.keywords :=
    plain_of_strict (by cases j.kind <;> decide)
  have on : Plain strict " ON (" := plain_of_strict (by decide)
  have dot : Plain strict "." := plain_of_strict (by decide)
  have equals : Plain strict " = " := plain_of_strict (by decide)
  have closing : Plain strict ")" := plain_of_strict (by decide)
  have name (n : String) := written_quoteName d strict n
  have table : Written d strict 0 (if j.tableAlias = j.store then d.quoteName j.store
      else d.quoteName j.store ++ " " ++ d.quoteName j.tableAlias) := by
    split
    · exact name j.store
    · exact ((name j.store).append_none plain_blank.written).append_none (name j.tableAlias)
  have start := ((keywords.written.append_none plain_blank.written).append_none table).append_none
    on.written
  have left := ((start.append_none (name j.parent)).append_none dot.written).append_none
    (name j.parentColumn)
  have right := (((left.append_none equals.written).append_none (name j.tableAlias)).append_none
    dot.written).append_none (name j.targetColumn)
  exact right.append_none closing.written

/-- The tables and joins of a statement are written without a marker. -/
lemma written_renderTables (s : Select) (d : Dialect) (strict : Bool) :
    Written d strict 0 (s.renderTables (Renderer.standard d)) := by
  apply written_intercalate plain_blank
  intro text mem
  rcases List.mem_cons.1 mem with rfl | mem
  · exact written_quoteName d strict s.table.store
  · obtain ⟨j, -, rfl⟩ := List.mem_map.1 mem
    exact written_renderJoin d strict j

/-- The calls of what is selected are those of what is stored. -/
lemma plainCalls_selectList (calls : ∀ e ∈ s.stored, e.Throughout (Expr.PlainCalls strict)) :
    ∀ e ∈ s.selectList, e.Throughout (Expr.PlainCalls strict) :=
  throughout_selectList calls fun _ _ => trivial

/-- The keys of a grouped query are columns and fields, without calls. -/
lemma plainCalls_groupBy : ∀ e ∈ s.groupBy.getD [], e.Throughout (Expr.PlainCalls strict) := by
  intro e mem
  obtain ⟨columnar, -⟩ := mem_groupBy mem
  cases e with
  | column | field => exact .of_leaf rfl trivial
  | _ => simp [Expr.isColumn, Expr.isField] at columnar

/-- What is selected has a marker for each parameter. -/
lemma marked_renderSelected (calls : ∀ e ∈ s.stored, e.Throughout (Expr.PlainCalls strict))
    (run : s.renderSelected (Renderer.standard d) = .ok a) : a.Marked d strict := by
  rw [renderSelected] at run
  split at run
  · obtain ⟨columns, columns_ok, run⟩ := except_bind_ok run
    obtain ⟨computed, computed_ok, run⟩ := except_bind_ok run
    cases run
    apply marked_join plain_comma
    intro b mem
    rcases List.mem_append.1 mem with mem | mem
    · obtain ⟨e, source, ok⟩ := except_mem_of_mapM_ok columns_ok mem
      exact marked_render (plainCalls_selectList calls e source) ok
    · obtain ⟨named, source, ok⟩ := except_mem_of_mapM_ok computed_ok mem
      have source : named.2 ∈ s.computed.map (·.2) := List.mem_map_of_mem source
      exact marked_renderNamed (calls _ (by simp [stored, source])) ok
  · obtain ⟨summary, summary_ok, run⟩ := except_bind_ok run
    cases run
    apply marked_join plain_comma
    intro b mem
    obtain ⟨named, source, ok⟩ := except_mem_of_mapM_ok summary_ok mem
    have source : named.2 ∈ s.summary.map (·.2) := List.mem_map_of_mem source
    exact marked_renderNamed (calls _ (by simp only [stored, List.mem_append, source, or_true])) ok

/-- A statement whose calls are plain has a marker for each parameter. -/
theorem marked_statement (calls : ∀ e ∈ s.stored, e.Throughout (Expr.PlainCalls strict))
    (run : s.render (Renderer.standard d) = .ok a) : a.Marked d strict := by
  obtain ⟨selected, selected_ok, run⟩ := except_bind_ok run
  obtain ⟨conditions, conditions_ok, run⟩ := except_bind_ok run
  obtain ⟨groups, groups_ok, run⟩ := except_bind_ok run
  obtain ⟨groupConditions, groupConditions_ok, run⟩ := except_bind_ok run
  obtain ⟨order, order_ok, run⟩ := except_bind_ok run
  cases run
  have select : Plain strict "SELECT " := plain_of_strict (by decide)
  have tables : Plain strict " FROM " := plain_of_strict (by decide)
  have and : Plain strict " AND " := plain_of_strict (by decide)
  have wherePlain : Plain strict "WHERE" := plain_of_strict (by decide)
  have groupPlain : Plain strict "GROUP BY" := plain_of_strict (by decide)
  have havingPlain : Plain strict "HAVING" := plain_of_strict (by decide)
  have orderPlain : Plain strict "ORDER BY" := plain_of_strict (by decide)
  have stored_mem {e : Expr} (mem : e ∈ s.conditions ∨ e ∈ s.groupConditions ∨ e ∈ s.order) :
      e.Throughout (Expr.PlainCalls strict) := by
    refine calls e ?_
    simp only [stored, List.mem_append]
    tauto
  apply marked_join plain_empty
  intro b mem
  simp only [List.mem_cons, List.not_mem_nil, or_false] at mem
  -- from the keyword for the select list to the sort keys
  rcases mem with rfl | rfl | rfl | rfl | rfl | rfl | rfl
  · exact select.written
  · exact marked_renderSelected calls selected_ok
  · exact tables.written.append_none (written_renderTables s d strict)
  · exact marked_renderClause wherePlain and (fun e mem => stored_mem (.inl mem)) conditions_ok
  · exact marked_renderClause groupPlain plain_comma plainCalls_groupBy groups_ok
  · exact marked_renderClause havingPlain and (fun e mem => stored_mem (.inr (.inl mem)))
      groupConditions_ok
  · refine marked_renderClause orderPlain plain_comma (fun e mem => ?_) order_ok
    split at mem
    · exact stored_mem (.inr (.inr mem))
    · cases mem

/-- A statement whose calls are plain has every quote closed and as many markers outside of quotes as
parameters. Numbered for PostgreSQL, its text outside of quotes is the same pieces with `$1`, `$2` and
so on for the markers between them; no piece has a marker, and none has a sign of numbered markers
when the texts of the calls have none. -/
theorem parameters_correspond (calls : ∀ e ∈ s.stored, e.Throughout (Expr.PlainCalls false))
    (run : s.render (Renderer.standard d) = .ok a) :
    isOpen d.quoteChar false a.sql.toList = false ∧
    (unquoted d.quoteChar false a.sql.toList).count '?' = a.params.length ∧
    (d = .postgres → ∃ first rest, rest.length = a.params.length ∧
      unquoted d.quoteChar false a.sql.toList = first ++ interleaved positional 1 rest ∧
      unquoted d.quoteChar false (a.numbered d).sql.toList = first ++ interleaved dollar 1 rest ∧
      (∀ piece ∈ first :: rest, '?' ∉ piece) ∧
      ((∀ e ∈ s.stored, e.Throughout (Expr.PlainCalls true)) →
        ∀ piece ∈ first :: rest, '$' ∉ piece)) := by
  obtain ⟨plain, spells, allowed, count⟩ := marked_statement calls run
  have free {c : Char} (mem : c ∈ reserved false) (other : c ≠ '?') : c ∉ plain :=
    fun inside => (allowed c inside).elim other fun h => h mem
  have noQuote : d.quoteChar ∉ plain := by
    refine free (quoteChar_mem_reserved d false) ?_
    cases d <;> decide
  have text := spells.unquoted_eq noQuote
  refine ⟨spells.isOpen_eq noQuote, by rw [text, count], ?_⟩
  rintro rfl
  obtain ⟨first, rest, pieces, numbered, length, free_pieces⟩ := exists_pieces 0 plain
  refine ⟨first, rest, by rw [length, count], by rw [text, pieces], ?_,
    fun piece mem => (free_pieces piece mem).1, fun strict piece mem sign => ?_⟩
  · -- numbering leaves the quoted names alone, so the numbered text is read like the text
    have renumbered : Spells '"' (numberMarks 0 plain) (a.numbered .postgres).sql.toList := by
      have free_quotes : ∀ c ∈ plain, isQuote c = false := by
        intro c mem
        rw [← Bool.not_eq_true]
        intro quote
        rcases eq_of_isQuote quote with rfl | rfl
        · exact noQuote mem
        · exact free (by decide) (by decide) mem
      have spelled := Spells.renumber spells free_quotes 0
      rwa [Fragment.numbered, mapSql, String.toList_ofList]
    rw [← numbered]
    apply renumbered.unquoted_eq
    intro mem
    rcases mem_numberMarks mem with eq | digit | mem
    · cases eq
    · cases digit
    · exact noQuote mem
  · obtain ⟨strictPlain, strictSpells, strictAllowed, -⟩ := marked_statement strict run
    -- the plain characters do not depend on how strict the reader is
    have same : strictPlain = plain := by
      rw [← text]
      refine (strictSpells.unquoted_eq fun mem => ?_).symm
      exact (strictAllowed _ mem).elim (by decide) fun h => h (by decide)
    have inside := (free_pieces piece mem).2 sign
    rw [← same] at inside
    exact (strictAllowed _ inside).elim (by decide) fun h => h (by decide)

/-- A query whose names have markers and quotes in them. -/
def oddNames : Select :=
  { allStaff with
    table := { staff with store := "T?\"" }
    computed := [("what's?", .lower (.literal (.text "?") none))]
    conditions := [.compare (.column "T?\"" "pay" none) .gt (.literal (.integer 10) none)] }

/-- The statement for PostgreSQL of the query with odd names. -/
def oddStatement : Fragment where
  sql := "SELECT \"T?\"\"\".\"name\", \"T?\"\"\".\"pay\", \"T?\"\"\".\"boss_id\", " ++
    "LOWER(?) AS \"what's?\" FROM \"T?\"\"\" WHERE \"T?\"\"\".\"pay\" > ?"
  params := [.text "?", .integer 10]

/-- Only the two markers outside of the quoted names count. -/
theorem parameters_correspond_oddNames :
    oddNames.render (Renderer.standard .postgres) = .ok oddStatement ∧
      isOpen '"' false oddStatement.sql.toList = false ∧
      (unquoted '"' false oddStatement.sql.toList).count '?' = 2 := by
  have rendered : oddNames.render (Renderer.standard .postgres) = .ok oddStatement := rfl
  obtain ⟨closed, count, -⟩ := parameters_correspond (by decide) rendered
  exact ⟨rendered, closed, count⟩

/-- The digits behind each sign of numbered markers. -/
def markNumbers : List Char → List (List Char)
  | [] => []
  | c :: rest =>
    if c = '$' then rest.takeWhile Char.isDigit :: markNumbers rest else markNumbers rest

/-- All people, with a call whose template has a sign of numbered markers in it. -/
def dollarTemplate : Select :=
  { allStaff with
    columns := [.call { CallHead.ofFunction "F" with template := "$2 %(expressions)s" }
      [.literal (.integer 1) none]] }

/-- The numbered statement of a query with plain calls can have other marks than those of its
parameters: a sign in a template stays. -/
theorem dollars_differ :
    ¬ ∀ (s : Select) (a : Fragment), (∀ e ∈ s.stored, e.Throughout (Expr.PlainCalls false)) →
      s.render (Renderer.standard .postgres) = .ok a →
      markNumbers (unquoted '"' false (a.numbered .postgres).sql.toList) =
        (List.range a.params.length).map fun k => Nat.toDigits 10 (k + 1) := by
  intro claim
  have marks := claim dollarTemplate ⟨"SELECT $2 ? FROM \"T2\"", [.integer 1]⟩ (by decide) rfl
  revert marks
  decide

end BoundSql.Select
