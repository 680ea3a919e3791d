import BoundSql.Error
import BoundSql.Fragment

/-!
# Overrides

What a dialect renders in a way of its own, by kind of node. `Overrides.standard` is the table of
the three dialects.
-/

namespace BoundSql

/-- A rendering that is not a template. -/
inductive CustomRule where
  /-- What is made of the rendering that a node has without an override. -/
  | edited (edit : Except Error Fragment → Except Error Fragment)
  /-- Powers as a call, for dialects without an operator for them. -/
  | powerAsCall
  /-- The placement of NULL as a sort key of its own. -/
  | nullsAsKey

namespace CustomRule

/-- One and the same result, whatever the node. -/
def constant (result : Except Error Fragment) : CustomRule :=
  .edited fun _ => result

/-- The rendering that a node has without an override. -/
def generic : CustomRule :=
  .edited id

end CustomRule

/-- What a dialect does differently for a kind of node. -/
inductive Override where
  /-- Other texts for the call of a function. -/
  | template (function template joiner : Option String)
  /-- The dialect cannot render the node. -/
  | unsupported
  | custom (rule : CustomRule)

namespace Override

/-- Another name for the SQL function. -/
def function (name : String) : Override :=
  .template (some name) none none

end Override

/-- Overrides by dialect and kind of node, the latest first. -/
structure Overrides where
  entries : List ((Dialect × String) × Override)

namespace Overrides

/-- The table without overrides. -/
def empty : Overrides := ⟨[]⟩

/-- The table with one more override, which replaces an earlier one. -/
def insert (o : Overrides) (dialect : Dialect) (kind : String) (value : Override) : Overrides :=
  ⟨((dialect, kind), value) :: o.entries⟩

/-- The override for a kind of node on a dialect. -/
def get? (o : Overrides) (dialect : Dialect) (kind : String) : Option Override :=
  (o.entries.find? (·.1 == (dialect, kind))).map (·.2)

/-- A lookup sees the inserted override at its place and the old table elsewhere. -/
theorem get?_insert (o : Overrides) (dialect dialect' : Dialect) (kind kind' : String)
    (value : Override) :
    (o.insert dialect kind value).get? dialect' kind' =
      if dialect = dialect' ∧ kind = kind' then some value else o.get? dialect' kind' := by
  by_cases h : dialect = dialect' ∧ kind = kind' <;> simp [insert, get?, h]

/-- The overrides that the dialects come with. -/
def standard : Overrides :=
  empty
  |>.insert .sqlite "Greatest" (.function "MAX")
  |>.insert .sqlite "Least" (.function "MIN")
  |>.insert .sqlite "Concat" (.template none (some "%(expressions)s") (some " || "))
  |>.insert .sqlite "CombinedExpression" (.custom .powerAsCall)
  |>.insert .sqlite "StdDev" .unsupported
  |>.insert .sqlite "Variance" .unsupported
  |>.insert .mysql "Length" (.function "CHAR_LENGTH")
  |>.insert .mysql "CombinedExpression" (.custom .powerAsCall)
  |>.insert .mysql "OrderBy" (.custom .nullsAsKey)
  |>.insert .postgres "Now" (.template none (some "STATEMENT_TIMESTAMP()") none)

end Overrides

end BoundSql
