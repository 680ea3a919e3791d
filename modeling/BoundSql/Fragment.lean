import BoundSql.Dialect
import BoundSql.Value

/-!
# Fragments

A fragment is SQL text with one `?` for each parameter it binds, in order. Dialects with numbered
parameters have the markers numbered at the end, outside of quotes only.
-/

namespace BoundSql

/-- SQL text and the values bound to its `?` markers, in order. -/
structure Fragment where
  sql : String
  params : List Value
deriving Repr, Inhabited

namespace Fragment

/-- Text that binds nothing. -/
def raw (sql : String) : Fragment :=
  ⟨sql, []⟩

/-- A marker bound to one value. -/
def bind (v : Value) : Fragment :=
  ⟨"?", [v]⟩

/-- The same parameters under changed text. -/
def mapSql (f : String → String) (a : Fragment) : Fragment :=
  ⟨f a.sql, a.params⟩

/-- The fragment in parentheses. -/
def parenthesized (a : Fragment) : Fragment :=
  a.mapSql fun sql => "(" ++ sql ++ ")"

/-- Fragments side by side with a separator between each two. -/
def join (separator : String) (parts : List Fragment) : Fragment :=
  ⟨separator.intercalate (parts.map (·.sql)), parts.flatMap (·.params)⟩

@[simp] theorem join_singleton (separator : String) (a : Fragment) : join separator [a] = a := by
  simp [join]

/-- Whether the character opens and closes a quoted span of SQL text. -/
def isQuote (c : Char) : Bool :=
  c.toNat == 34 || c.toNat == 39

/-- The text with its unquoted markers numbered on from `count`. The first argument is the quote
of the span the text starts in. Numbers have no limit here: that a statement with 2^31 markers or more
cannot be numbered is left out. -/
def renumber : Option Char → Nat → List Char → List Char
  | _, _, [] => []
  | none, count, c :: rest =>
    if c = '?' then '$' :: Nat.toDigits 10 (count + 1) ++ renumber none (count + 1) rest
    else c :: renumber (if isQuote c then some c else none) count rest
  | some quote, count, c :: rest =>
    c :: renumber (if c = quote then none else some quote) count rest

/-- The fragment as its dialect binds parameters: numbered for PostgreSQL, by position else. -/
def numbered (a : Fragment) : Dialect → Fragment
  | .postgres => a.mapSql fun sql => String.ofList (renumber none 0 sql.toList)
  | .sqlite | .mysql => a

end Fragment

end BoundSql
