import BoundSql.CommandLine.Arguments
import BoundSql.Description.Catalog
import BoundSql.Description.Query
import BoundSql.Json.Reader
import BoundSql.Json.Writer
import BoundSql.Select.Statement

/-!
# The program

Renders the query described in one file over the catalog described in another: the statement on a
line, and its parameters on the next. How files are read is left to the caller.
-/

namespace BoundSql.CommandLine

/-- What the program leaves behind. -/
structure Outcome where
  exitCode : Nat
  stdout : String
  stderr : String
deriving DecidableEq, Repr

/-- Why there is no statement. -/
inductive Failure where
  | unreadable (path reason : String)
  | notJson (path : String)
  | invalidCatalog (e : SchemaError)
  | build (e : BuildFailure)
  | render (dialect : Dialect) (e : Error)
deriving DecidableEq, Repr

namespace Failure

/-- What failed, and the cause of it where that is another thing. -/
def message : Failure → String × Option String
  | .unreadable path reason => (s!"Failed to read {path}", some reason)
  | .notJson path => (s!"Invalid JSON in {path}", none)
  | .invalidCatalog e => ("Invalid catalog", some e.message)
  | .build ⟨some step, cause⟩ => (step, some cause.message)
  | .build ⟨none, cause⟩ => (cause.message, none)
  | .render dialect e => (s!"Failed to compile for {dialect.vendor}", some e.message)

/-- The report of a failure. All lines of the cause are indented. -/
def report (f : Failure) : String :=
  match f.message with
  | (what, none) => "Error: " ++ what
  | (what, some cause) =>
    "Error: " ++ what ++ "\n\nCaused by:\n    " ++ "\n    ".intercalate (cause.splitOn "\n")

end Failure

/-- How the program is called and what its options mean. -/
def helpText : String :=
  String.join ([
    "sqlexpr - compile expression trees into SQL for a backend",
    "",
    "Usage: sqlexpr [OPTIONS] --catalog <CATALOG> --query <QUERY>",
    "",
    "Options:",
    "  -c, --catalog <CATALOG>  Catalog file (JSON)",
    "  -q, --query <QUERY>      Query description file (JSON)",
    "  -b, --backend <BACKEND>  Target backend: postgres, sqlite or mysql [default: postgres]",
    "  -d, --debug              Enable debug logging",
    "  -h, --help               Print help",
    "  -V, --version            Print version"].map (· ++ "\n"))

/-- The name and version of the program. -/
def versionText : String :=
  "sqlexpr 0.1.0\n"

/-- The description in the text of a file. -/
def describe {α : Type} (path : String) (ofJson? : Json → Option α) (text : String) :
    Except Failure α :=
  match Json.read? text >>= ofJson? with
  | some a => .ok a
  | none => .error (.notJson path)

/-- The text of a file that was read, or failed to be. -/
def fileText (path : String) : Except String String → Except Failure String
  | .ok text => .ok text
  | .error reason => .error (.unreadable path reason)

/-- The valid catalog in a file. -/
def catalogOf (path : String) (file : Except String String) : Except Failure Catalog := do
  let catalog ← describe path Catalog.ofJson? (← fileText path file)
  catalog.validate.mapError .invalidCatalog
  return catalog

/-- The statement for the query in a file. -/
def statementOf (catalog : Catalog) (dialect : Dialect) (path : String)
    (file : Except String String) : Except Failure Fragment := do
  let d ← describe path QueryDescription.ofJson? (← fileText path file)
  let s ← (d.build catalog).mapError .build
  let statement ← (s.render (.standard dialect)).mapError (.render dialect)
  return statement.numbered dialect

/-- A statement and its parameters, each on a line. -/
def outputText (statement : Fragment) : String :=
  statement.sql ++ "\n" ++ (Json.array (statement.params.map Value.toJson)).write ++ "\n"

/-- What the program leaves behind when it renders a statement or fails to. -/
def outcomeOf : Except Failure Fragment → Outcome
  | .ok statement => ⟨0, outputText statement, ""⟩
  | .error f => ⟨1, "", f.report⟩

/-- The program. The catalog is read and checked before the query. -/
def run {m : Type → Type} [Monad m] (readFile : String → m (Except String String))
    (arguments : List String) : m Outcome :=
  match parse arguments with
  | .error e => return ⟨2, "", e.report⟩
  | .ok .help => return ⟨0, helpText, ""⟩
  | .ok .version => return ⟨0, versionText, ""⟩
  | .ok (.render catalogPath queryPath dialect) => do
    match catalogOf catalogPath (← readFile catalogPath) with
    | .error f => return outcomeOf (.error f)
    | .ok catalog =>
      return outcomeOf (statementOf catalog dialect queryPath (← readFile queryPath))

end BoundSql.CommandLine
