import TripleTables.Compile.Statement
import TripleTables.Document.Reading
import TripleTables.Yaml.Node

/-!
# Settings

Where the catalog is and how statements are compiled.  The environment comes
first, a settings file replaces what it says, and flags of the command line
come last.  A settings file always speaks about every setting but the default
schema: what it leaves out has its standard value.
-/

namespace TripleTables

/-- The settings of a run. -/
structure Settings where
  catalogPath : String := "catalog.yaml"
  /-- The schema that is tried first for a table name without one. -/
  defaultSchema : Option String := none
  /-- Let the catalog's endpoint evaluate the pattern. -/
  useService : Bool := true
  /-- Check every template when the catalog is loaded. -/
  checkTemplates : Bool := false
deriving DecidableEq, Repr

/-- What is wrong with settings. -/
inductive SettingsFault where
  | emptyCatalogPath
  | emptyDefaultSchema
deriving DecidableEq, Repr

namespace SettingsFault

/-- The setting that is wrong. -/
def field : SettingsFault → String
  | .emptyCatalogPath => "catalog_path"
  | .emptyDefaultSchema => "default_schema"

/-- The fault in words. -/
def text : SettingsFault → String
  | .emptyCatalogPath => "Catalog path cannot be empty"
  | .emptyDefaultSchema => "Default schema cannot be empty"

end SettingsFault

/-- Why there are no settings. -/
inductive SettingsError where
  /-- A variable of the environment that is not a truth value. -/
  | malformedVariable (name value : String)
  | unreadableFile
  /-- A settings file that cannot be understood. -/
  | malformedFile (content : String)
  | invalid (faults : List SettingsFault)
deriving DecidableEq, Repr

namespace SettingsError

/-- What the error is about. -/
def field : SettingsError → String
  | .malformedVariable name _ => name
  | .unreadableFile => "yaml_file"
  | .malformedFile _ => "yaml_content"
  | .invalid _ => ""

/-- The text that is wrong. -/
def value : SettingsError → String
  | .malformedVariable _ value => value
  | .unreadableFile => "file read failed"
  | .malformedFile content => content
  | .invalid _ => ""

/-- What was expected. -/
def reason : SettingsError → String
  | .malformedVariable _ _ => "provided string was not `true` or `false`"
  | .unreadableFile => "the file cannot be read"
  | .malformedFile _ => "the file does not hold settings"
  | .invalid _ => ""

/-- The error in words. -/
def message (error : SettingsError) : String :=
  match error with
  | .invalid faults =>
      "Validation error: " ++
        "\n".intercalate (faults.map fun fault => fault.field ++ ": " ++ fault.text)
  | _ => "Parse error for " ++ error.field ++ ": " ++ error.value ++ " - " ++ error.reason

end SettingsError

/-- The values of the variables that are set. -/
abbrev Environment := String → Option String

/-- The flags of the command line that are about settings. -/
structure Flags where
  catalogPath : Option String := none
  defaultSchema : Option String := none
  /-- Never let the catalog's endpoint evaluate the pattern. -/
  noService : Bool := false
  checkTemplates : Bool := false
deriving DecidableEq, Repr

namespace Settings

/-! ## Validity -/

/-- What is wrong with the settings. -/
def faults (settings : Settings) : List SettingsFault :=
  (if settings.catalogPath = "" then [.emptyCatalogPath] else []) ++
    (if settings.defaultSchema = some "" then [.emptyDefaultSchema] else [])

/-- The settings if nothing is wrong with them. -/
def validated (settings : Settings) : Except SettingsError Settings :=
  match settings.faults with
  | [] => .ok settings
  | faults => .error (.invalid faults)

/-! ## The environment -/

/-- The variable for the path of the catalog. -/
def catalogVariable : String := "SQL2SPARQL_CATALOG"

/-- The variable for the default schema. -/
def schemaVariable : String := "SQL2SPARQL_DEFAULT_SCHEMA"

/-- The variable for the use of the catalog's endpoint. -/
def serviceVariable : String := "SQL2SPARQL_USE_SERVICE"

/-- The variable for the check of templates. -/
def templatesVariable : String := "SQL2SPARQL_VALIDATE_CATALOG"

/-- All variables. -/
def variableNames : List String :=
  [catalogVariable, schemaVariable, serviceVariable, templatesVariable]

/-- A variable that has to be a truth value if it is set. -/
def flagVariable (environment : Environment) (name : String) (fallback : Bool) :
    Except SettingsError Bool :=
  match environment name with
  | none => .ok fallback
  | some "true" => .ok true
  | some "false" => .ok false
  | some other => .error (.malformedVariable name other)

/-- The settings of the environment. -/
def ofEnvironment (environment : Environment) : Except SettingsError Settings := do
  let standard : Settings := {}
  let useService ← flagVariable environment serviceVariable standard.useService
  let checkTemplates ← flagVariable environment templatesVariable standard.checkTemplates
  validated
    { catalogPath := (environment catalogVariable).getD standard.catalogPath
      defaultSchema := environment schemaVariable
      useService
      checkTemplates }

/-! ## Settings files -/

/-- Reads settings. -/
def ofDocument (document : Document) : Reading Settings := do
  let standard : Settings := {}
  let record ← document.record
    ["catalog_path", "default_schema", "use_service_clause", "validate_catalog"]
  return { catalogPath :=
             ← record.withDefault "catalog_path" standard.catalogPath Document.text
           defaultSchema := ← record.optionalText "default_schema"
           useService :=
             ← record.withDefault "use_service_clause" standard.useService Document.truth
           checkTemplates :=
             ← record.withDefault "validate_catalog" standard.checkTemplates Document.truth }

/-- The settings of a text. -/
def ofText (text : String) : Except SettingsError Settings :=
  match (Yaml.read text).bind (·.read? ofDocument) with
  | some settings => settings.validated
  | none => .error (.malformedFile text)

/-- The settings of a file that may be missing. -/
def ofFile : Option String → Except SettingsError Settings
  | some text => ofText text
  | none => .error .unreadableFile

/-! ## Layers -/

/-- The settings with those of a file over them.  A default schema that the
file leaves out stays. -/
def merge (settings other : Settings) : Settings :=
  { other with defaultSchema := other.defaultSchema.or settings.defaultSchema }

/-- The settings with flags over them. -/
def withFlags (settings : Settings) (flags : Flags) : Settings :=
  { catalogPath := flags.catalogPath.getD settings.catalogPath
    defaultSchema := flags.defaultSchema.or settings.defaultSchema
    useService := settings.useService && !flags.noService
    checkTemplates := settings.checkTemplates || flags.checkTemplates }

/-- The settings with those of a settings file over them, if one is named;
the file may be missing. -/
def withFile (settings : Settings) : Option (Option String) → Except SettingsError Settings
  | none => .ok settings
  | some file => settings.merge <$> ofFile file

/-- The settings of a run. -/
def resolve (environment : Environment) (file : Option (Option String)) (flags : Flags) :
    Except SettingsError Settings := do
  let settings ← ofEnvironment environment
  let settings ← settings.withFile file
  (settings.withFlags flags).validated

/-- How statements are compiled under the settings. -/
def compileOptions (settings : Settings) : CompileOptions :=
  { defaultSchema := settings.defaultSchema
    useService := settings.useService }

end Settings

end TripleTables
