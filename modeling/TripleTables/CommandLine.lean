import TripleTables.Catalog.Document
import TripleTables.Query.Json
import TripleTables.Settings

/-!
# The command line

What the arguments ask for and what comes out of it.  Files are read through a
function that the caller supplies, so that everything here can be evaluated.
-/

namespace TripleTables

/-- What is printed for a statement. -/
inductive OutputFormat where
  /-- The text of the query. -/
  | sparql
  /-- The compiled query as data. -/
  | json
deriving DecidableEq, Repr

/-- The format with a name. -/
def OutputFormat.ofText? : String → Option OutputFormat
  | "sparql" => some .sparql
  | "json" => some .json
  | _ => none

/-- The options that take a value. -/
inductive ValueOption where
  | catalog
  | config
  | defaultSchema
  | format
deriving DecidableEq, Repr

/-- The options that take none. -/
inductive FlagOption where
  | noService
  | checkTemplates
  | help
  | version
deriving DecidableEq, Repr

/-- The option with a long name. -/
def ValueOption.ofName? : String → Option ValueOption
  | "catalog" => some .catalog
  | "config" => some .config
  | "default-schema" => some .defaultSchema
  | "format" => some .format
  | _ => none

/-- The option with a long name. -/
def FlagOption.ofName? : String → Option FlagOption
  | "no-service" => some .noService
  | "validate-catalog" => some .checkTemplates
  | "help" => some .help
  | "version" => some .version
  | _ => none

/-- What the arguments have said so far. -/
structure Arguments where
  catalog : Option String := none
  config : Option String := none
  defaultSchema : Option String := none
  format : Option OutputFormat := none
  noService : Bool := false
  checkTemplates : Bool := false
  sql : Option String := none
deriving DecidableEq, Repr

/-- Why the arguments do not ask for a run. -/
inductive Halt where
  | usage
  | help
  | version
deriving DecidableEq, Repr

namespace Arguments

/-- The value of an option; no option is given twice. -/
def setValue (arguments : Arguments) (value : String) : ValueOption → Except Halt Arguments
  | .catalog =>
      if arguments.catalog.isSome then .error .usage
      else .ok { arguments with catalog := some value }
  | .config =>
      if arguments.config.isSome then .error .usage
      else .ok { arguments with config := some value }
  | .defaultSchema =>
      if arguments.defaultSchema.isSome then .error .usage
      else .ok { arguments with defaultSchema := some value }
  | .format =>
      match arguments.format, OutputFormat.ofText? value with
      | none, some format => .ok { arguments with format := some format }
      | _, _ => .error .usage

/-- A flag; no flag is given twice. -/
def setFlag (arguments : Arguments) : FlagOption → Except Halt Arguments
  | .noService =>
      if arguments.noService then .error .usage else .ok { arguments with noService := true }
  | .checkTemplates =>
      if arguments.checkTemplates then .error .usage
      else .ok { arguments with checkTemplates := true }
  | .help => .error .help
  | .version => .error .version

/-- The statement, of which there is one. -/
def setSql (arguments : Arguments) (text : String) : Except Halt Arguments :=
  if arguments.sql.isSome then .error .usage else .ok { arguments with sql := some text }

/-- What one argument is. -/
inductive Argument where
  /-- The mark after which no option comes. -/
  | stop
  | valueOption (option : ValueOption) (value : Option String)
  | flag (option : FlagOption)
  | text (text : String)
  | unknown
deriving DecidableEq, Repr

/-- The option with a long name, and perhaps a value after an equals sign. -/
def longOption (name : String) (value : Option String) : Argument :=
  match ValueOption.ofName? name, FlagOption.ofName? name with
  | some option, _ => .valueOption option value
  | none, some option => if value.isSome then .unknown else .flag option
  | none, none => .unknown

/-- The argument that a text is while options may come. -/
def classify (text : String) : Argument :=
  match text.toList with
  | ['-', '-'] => .stop
  | '-' :: '-' :: rest =>
      let name := rest.takeWhile (· != '=')
      let value := (rest.dropWhile (· != '=')).tail?
      longOption (String.ofList name) (value.map String.ofList)
  | '-' :: 'h' :: _ => .flag .help
  | '-' :: 'V' :: _ => .flag .version
  | '-' :: _ :: _ => .unknown
  | _ => .text text

/-- The statement among arguments after which no option comes. -/
def readTexts (arguments : Arguments) : List String → Except Halt Arguments
  | [] => .ok arguments
  | text :: rest => do readTexts (← arguments.setSql text) rest

/-- Reads arguments.  `pending` is an option that waits for its value, which
has to be the next argument and no option. -/
def readFrom (arguments : Arguments) (pending : Option ValueOption) :
    List String → Except Halt Arguments
  | [] => if pending.isSome then .error .usage else .ok arguments
  | text :: rest =>
      match classify text, pending with
      | .text value, some option => do readFrom (← arguments.setValue value option) none rest
      | _, some _ => .error .usage
      | .text sql, none => do readFrom (← arguments.setSql sql) none rest
      | .stop, none => readTexts arguments rest
      | .valueOption option none, none => readFrom arguments (some option) rest
      | .valueOption option (some value), none => do
          readFrom (← arguments.setValue value option) none rest
      | .flag option, none => do readFrom (← arguments.setFlag option) none rest
      | .unknown, none => .error .usage

/-- Reads the arguments of a run, among which there has to be a statement. -/
def read (arguments : List String) : Except Halt (Arguments × String) := do
  let found ← readFrom {} none arguments
  match found.sql with
  | some sql => return (found, sql)
  | none => throw .usage

/-- The flags that are about settings. -/
def flags (arguments : Arguments) : Flags :=
  { catalogPath := arguments.catalog
    defaultSchema := arguments.defaultSchema
    noService := arguments.noService
    checkTemplates := arguments.checkTemplates }

end Arguments

/-! ## Runs -/

/-- Why a run fails. -/
inductive RunError where
  | settings (error : SettingsError)
  | catalog (path : String) (error : CatalogError)
  | compile (error : CompileError)
  | render (error : Sparql.RenderError)
deriving DecidableEq, Repr

namespace RunError

/-- The error in words. -/
def message : RunError → String
  | .settings _ => "Configuration error"
  | .catalog path _ => "Failed to load catalog " ++ path
  | .compile error => error.message
  | .render error => error.message

/-- What lies behind the error, if something does. -/
def cause? : RunError → Option String
  | .settings error => some error.message
  | .catalog _ error => some error.message
  | .compile _ => none
  | .render _ => none

/-- The error and what lies behind it. -/
def report (error : RunError) : String :=
  match error.cause? with
  | some cause => "Error: " ++ error.message ++ "\n\nCaused by:\n    " ++ cause ++ "\n"
  | none => "Error: " ++ error.message ++ "\n"

end RunError

/-- What a run leaves behind. -/
structure Outcome where
  exitCode : Nat
  output : String := ""
  errors : String := ""
deriving DecidableEq, Repr

namespace CommandLine

/-- The name of the program. -/
def program : String := "sql2sparql"

/-- The version of the program. -/
def version : String := "0.3.0-dev"

/-- How the program is called. -/
def usage : String := "Usage: " ++ program ++ " [OPTIONS] <SQL>\n"

/-- What the program can do. -/
def help : String :=
  "Compiles SQL SELECT statements into SPARQL graph-query algebra over a virtual-table catalog\n\n"
    ++ usage ++
    "\nArguments:\n" ++
    "  <SQL>  SQL statement to compile\n" ++
    "\nOptions:\n" ++
    "      --catalog <CATALOG>                Catalog YAML file\n" ++
    "      --config <CONFIG>                  YAML file with compiler settings\n" ++
    "      --default-schema <DEFAULT_SCHEMA>  Schema tried first for unqualified table names\n" ++
    "      --no-service                       Never wrap the pattern in a SERVICE block\n" ++
    "      --validate-catalog                 Check every pattern template\n" ++
    "      --format <FORMAT>                  Output format: sparql (default) or json\n" ++
    "  -h, --help                             Print help\n" ++
    "  -V, --version                          Print version\n"

/-- The outcome of arguments that do not ask for a run. -/
def halted : Halt → Outcome
  | .usage => { exitCode := 2, errors := usage }
  | .help => { exitCode := 0, output := help }
  | .version => { exitCode := 0, output := program ++ " " ++ version ++ "\n" }

/-- What is printed for a compiled query. -/
def present (format : OutputFormat) (query : Query) : Except RunError String :=
  match format with
  | .sparql => (Sparql.render query).mapError .render
  | .json => .ok query.json.text

/-- What is printed for a statement, given the settings and the catalog's file,
which may be missing. -/
def answer (settings : Settings) (file : Option String) (format : OutputFormat) (sql : String) :
    Except RunError String := do
  let catalog ←
    (Catalog.load file settings.checkTemplates).mapError (.catalog settings.catalogPath)
  let compiler : Compiler := { catalog, options := settings.compileOptions }
  let query ← (compiler.compileText sql).mapError .compile
  present format query

/-- The outcome of a run.  A run that breaks down has a code of its own. -/
def finished : Except RunError String → Outcome
  | .ok text => { exitCode := 0, output := text ++ "\n" }
  | .error (.compile (.torn _)) => { exitCode := 101 }
  | .error error => { exitCode := 1, errors := error.report }

variable {m : Type → Type} [Monad m]

/-- Runs the program on its arguments.  `readFile` gives the text of a file, if
it can be read. -/
def run (readFile : String → m (Option String)) (environment : Environment)
    (arguments : List String) : m Outcome :=
  match Arguments.read arguments with
  | .error halt => pure (halted halt)
  | .ok (arguments, sql) => do
      let file ← arguments.config.mapM readFile
      match Settings.resolve environment file arguments.flags with
      | .error error => return finished (.error (.settings error))
      | .ok settings =>
          let catalogFile ← readFile settings.catalogPath
          return finished
            (answer settings catalogFile (arguments.format.getD .sparql) sql)

end CommandLine

end TripleTables
