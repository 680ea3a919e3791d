import BoundSql.CommandLine.ControlSequence
import BoundSql.Dialect

/-!
# Arguments of the command line

Options are given as `--name value`, `--name=value`, `-n value`, `-nvalue` or `-n=value`, and flags
as `--name` or, several in one, `-nm`. A value that stands apart is checked only when the next
option or flag begins or the arguments end, so an argument that cannot stand there at all is
reported before it.
-/

namespace BoundSql.CommandLine

/-- The options that take a value. -/
inductive ValueOption where
  | catalog
  | query
  | backend
deriving DecidableEq, Repr

/-- The options without a value. -/
inductive Flag where
  | debug
  | help
  | version
deriving DecidableEq, Repr

/-- An option by its name. -/
inductive Named where
  | value (option : ValueOption)
  | flag (flag : Flag)
deriving DecidableEq, Repr

namespace ValueOption

/-- The option as messages name it. -/
def usage : ValueOption → String
  | .catalog => "--catalog <CATALOG>"
  | .query => "--query <QUERY>"
  | .backend => "--backend <BACKEND>"

end ValueOption

namespace Flag

/-- The flag as messages name it. -/
def usage : Flag → String
  | .debug => "--debug"
  | .help => "--help"
  | .version => "--version"

end Flag

namespace Named

/-- The option with a long name. -/
def ofLong? : String → Option Named
  | "catalog" => some (.value .catalog)
  | "query" => some (.value .query)
  | "backend" => some (.value .backend)
  | "debug" => some (.flag .debug)
  | "help" => some (.flag .help)
  | "version" => some (.flag .version)
  | _ => none

/-- The option with a short name. -/
def ofShort? : Char → Option Named
  | 'c' => some (.value .catalog)
  | 'q' => some (.value .query)
  | 'b' => some (.value .backend)
  | 'd' => some (.flag .debug)
  | 'h' => some (.flag .help)
  | 'V' => some (.flag .version)
  | _ => none

end Named

/-- What is wrong with the arguments. -/
inductive ArgumentError where
  | unexpected (argument : String)
  | missingValue (option : ValueOption)
  | unneededValue (value : String) (flag : Flag)
  | repeated (option : String)
  | invalidValue (value : String) (option : ValueOption) (reason : String)
  | missing (options : List ValueOption)
deriving DecidableEq, Repr

/-- The wording of an error, for a terminal. What is wrong in the arguments and what the program calls
its options stand out. -/
def ArgumentError.message : ArgumentError → String
  | .unexpected argument => s!"unexpected argument '{emphasised argument}' found"
  | .missingValue option =>
    s!"a value is required for '{emphasised option.usage}' but none was supplied"
  | .unneededValue value flag =>
    s!"unexpected value '{emphasised value}' for '{emphasised flag.usage}' found; " ++
      "no more were expected"
  | .repeated option => s!"the argument '{emphasised option}' cannot be used multiple times"
  | .invalidValue value option reason =>
    s!"invalid value '{emphasised value}' for '{emphasised option.usage}': {reason}"
  | .missing options =>
    "the following required arguments were not provided:" ++
      String.join (options.map fun option => "\n  " ++ emphasised option.usage)

/-- The report of an error, less its control sequences. One that is left open in the reason for an
error hides what the report says after it, up to what stands out next. -/
def ArgumentError.report (e : ArgumentError) : String :=
  visible (emphasised "error:" ++ " " ++ e.message ++
    "\n\nFor more information, try '" ++ emphasised "--help" ++ "'.")

/-- What the program is told to do. -/
inductive Command where
  /-- Render the query of one file over the catalog of another. -/
  | render (catalog query : String) (dialect : Dialect)
  | help
  | version
deriving DecidableEq, Repr

/-- Why the arguments are not read on: an error, or a flag that needs no more. -/
inductive Halt where
  | error (e : ArgumentError)
  | help
  | version
deriving DecidableEq, Repr

/-- What the arguments read so far say. -/
structure Progress where
  catalog : Option String := none
  query : Option String := none
  dialect : Option Dialect := none
  debug : Bool := false
  /-- An option whose value, if it is there already, is not checked yet. -/
  pending : Option (ValueOption × Option String) := none
  /-- Whether only operands may follow, of which there are none. -/
  operandsOnly : Bool := false

namespace Progress

/-- Checks and stores the value of an option. -/
def store (p : Progress) (option : ValueOption) (value : String) : Except Halt Progress :=
  let repeated := Except.error (.error (.repeated option.usage))
  match option with
  | .catalog =>
    if p.catalog.isSome then repeated
    else if value.isEmpty then .error (.error (.missingValue .catalog))
    else .ok { p with catalog := some value }
  | .query =>
    if p.query.isSome then repeated
    else if value.isEmpty then .error (.error (.missingValue .query))
    else .ok { p with query := some value }
  | .backend =>
    if p.dialect.isSome then repeated
    else match Dialect.ofAnyName? value with
      | some dialect => .ok { p with dialect := some dialect }
      | none => .error (.error (.invalidValue value .backend (Dialect.unknownName value)))

/-- Checks and stores the option that waits for it. -/
def settle (p : Progress) : Except Halt Progress :=
  match p.pending with
  | none => .ok p
  | some (option, none) => .error (.error (.missingValue option))
  | some (option, some value) => { p with pending := none }.store option value

/-- Reads an option whose value is attached to it, or follows it. -/
def takeOption (p : Progress) (option : ValueOption) (attached : Option String) :
    Except Halt Progress := do
  let p ← p.settle
  match attached with
  | some value => p.store option value
  | none => return { p with pending := some (option, none) }

/-- Reads a flag. -/
def takeFlag (p : Progress) (flag : Flag) : Except Halt Progress := do
  let p ← p.settle
  match flag with
  | .help => throw .help
  | .version => throw .version
  | .debug => if p.debug then throw (.error (.repeated flag.usage)) else return { p with debug := true }

/-- Reads a long option, less its dashes. -/
def takeLong (p : Progress) (text : String) : Except Halt Progress :=
  let (name, rest) := text.toList.span (· ≠ '=')
  let attached := match rest with
    | [] => none
    | _ :: value => some (String.ofList value)
  match Named.ofLong? (String.ofList name), attached with
  | some (.value option), attached => p.takeOption option attached
  | some (.flag flag), none => p.takeFlag flag
  | some (.flag flag), some value => .error (.error (.unneededValue value flag))
  | none, _ => .error (.error (.unexpected ("--" ++ String.ofList name)))

/-- Reads short options in one argument, less its dash. What follows an option with a value is its
value. -/
def takeShort (p : Progress) : List Char → Except Halt Progress
  | [] => .ok p
  | c :: rest =>
    match Named.ofShort? c with
    | some (.flag flag) => do (← p.takeFlag flag).takeShort rest
    | some (.value option) =>
      match rest with
      | [] => p.takeOption option none
      | '=' :: value => p.takeOption option (some (String.ofList value))
      | value => p.takeOption option (some (String.ofList value))
    | none => .error (.error (.unexpected (String.ofList ['-', c])))

/-- Reads an argument that is no option. It can only be the value that an option waits for. -/
def takeValue (p : Progress) (argument : String) : Except Halt Progress :=
  match p.pending with
  | some (option, none) => .ok { p with pending := some (option, some argument) }
  | _ => .error (.error (.unexpected argument))

/-- Reads an argument. -/
def take (p : Progress) (argument : String) : Except Halt Progress :=
  if p.operandsOnly then .error (.error (.unexpected argument))
  else match argument.toList with
    | ['-', '-'] => .ok { p with operandsOnly := true }
    | '-' :: '-' :: text => p.takeLong (String.ofList text)
    | '-' :: c :: text => p.takeShort (c :: text)
    | _ => p.takeValue argument

/-- What all arguments together say. The dialect is PostgreSQL unless they say otherwise. -/
def finish (p : Progress) : Except Halt Command := do
  let p ← p.settle
  match p.catalog, p.query with
  | some catalog, some query => return .render catalog query (p.dialect.getD .postgres)
  | catalog, query =>
    throw (.error (.missing ((if catalog.isNone then [.catalog] else []) ++
      if query.isNone then [.query] else [])))

end Progress

/-- Reads the arguments of the program. -/
def parse (arguments : List String) : Except ArgumentError Command :=
  match arguments.foldlM Progress.take {} >>= Progress.finish with
  | .ok command => .ok command
  | .error .help => .ok .help
  | .error .version => .ok .version
  | .error (.error e) => .error e

end BoundSql.CommandLine
