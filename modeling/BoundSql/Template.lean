import BoundSql.Dict
import BoundSql.Error

/-!
# Templates of calls

The SQL of a call is a template with placeholders `%(key)s`. A template is read into its pieces
once, and each piece is replaced by its text; what a placeholder stands for is never read again.
A doubled percent sign stands for one, and any other lone percent sign for itself.
-/

namespace BoundSql

namespace Template

/-- A piece of a template. -/
inductive Piece where
  /-- One character of text. -/
  | char (c : Char)
  /-- A placeholder for the text of a key. -/
  | placeholder (key : String)
  /-- A placeholder that is opened and never closed, with all that follows it. -/
  | unclosed (rest : String)
deriving DecidableEq, Repr

/-- The pieces of a text. Inside a placeholder the first argument holds the key read so far, last
character first. -/
def scan : Option (List Char) → List Char → List Piece
  | none, [] => []
  | none, '%' :: '%' :: rest => .char '%' :: scan none rest
  | none, '%' :: '(' :: rest => scan (some []) rest
  | none, c :: rest => .char c :: scan none rest
  | some key, [] => [.unclosed (String.ofList key.reverse)]
  | some key, ')' :: 's' :: rest => .placeholder (String.ofList key.reverse) :: scan none rest
  | some key, c :: rest => scan (some (c :: key)) rest

/-- The pieces of a template. -/
def pieces (template : String) : List Piece :=
  scan none template.toList

/-- The text of a piece, where the template is named in errors. -/
def Piece.text (template : String) (context : Dict String) : Piece → Except Error String
  | .char c => .ok (String.singleton c)
  | .placeholder key =>
    match context.get? key with
    | some text => .ok text
    | none => .error (.unknownKey template key)
  | .unclosed rest => .error (.unknownKey template rest)

/-- The template with every placeholder replaced by the text of its key. The first placeholder
without a text is the error. -/
def render (template : String) (context : Dict String) : Except Error String :=
  return String.join (← (pieces template).mapM (Piece.text template context))

end Template

end BoundSql
