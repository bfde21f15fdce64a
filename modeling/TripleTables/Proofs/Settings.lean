import TripleTables.Proofs.Run
import TripleTables.Settings

/-!
# Layers of settings

A run takes its settings from the flags of the command line, from a settings file,
from the environment and from the standard values.  A layer is what one of these
says: of each setting a value, or nothing.  Where the layers lie over each other,
the uppermost that speaks of a setting decides it.

A settings file does not leave to the environment what it is silent about, with
the exception of the default schema: such a setting has its standard value unless
a flag speaks of it, whatever the environment says.
-/

namespace TripleTables

/-- The settings, by name. -/
inductive Setting where
  | catalogPath
  | defaultSchema
  | useService
  | checkTemplates
deriving DecidableEq, Repr

/-- The values of a setting that is set. -/
abbrev Setting.Value : Setting → Type
  | .catalogPath => String
  | .defaultSchema => String
  | .useService => Bool
  | .checkTemplates => Bool

/-- What is said about the settings. -/
abbrev Layer := (setting : Setting) → Option setting.Value

/-- The layer with another one under it. -/
def Layer.over (upper lower : Layer) : Layer :=
  fun setting => (upper setting).or (lower setting)

/-- The layer of settings, which is silent about an absent default schema only. -/
def Settings.layer (settings : Settings) : Layer
  | .catalogPath => some settings.catalogPath
  | .defaultSchema => settings.defaultSchema
  | .useService => some settings.useService
  | .checkTemplates => some settings.checkTemplates

/-- The layer of the standard values. -/
def Layer.standard : Layer :=
  Settings.layer {}

/-- The settings with the values of a layer, and the standard values where it says
nothing. -/
def Layer.settings (layer : Layer) : Settings :=
  { catalogPath := (layer .catalogPath).getD ({} : Settings).catalogPath
    defaultSchema := layer .defaultSchema
    useService := (layer .useService).getD ({} : Settings).useService
    checkTemplates := (layer .checkTemplates).getD ({} : Settings).checkTemplates }

theorem Layer.layer_settings (layer : Layer) : layer.settings.layer = layer.over standard := by
  funext setting
  cases setting with
  | catalogPath => exact (Option.or_some ..).symm
  | defaultSchema => exact Option.or_none.symm
  | useService => exact (Option.or_some ..).symm
  | checkTemplates => exact (Option.or_some ..).symm

/-! ## Flags and variables -/

/-- A flag says something if it is given. -/
def Flags.layer (flags : Flags) : Layer
  | .catalogPath => flags.catalogPath
  | .defaultSchema => flags.defaultSchema
  | .useService => if flags.noService then some false else none
  | .checkTemplates => if flags.checkTemplates then some true else none

theorem Settings.layer_withFlags (settings : Settings) (flags : Flags) :
    (settings.withFlags flags).layer = flags.layer.over settings.layer := by
  funext setting
  cases setting with
  | catalogPath => exact (Option.or_some ..).symm
  | defaultSchema => rfl
  | useService =>
      cases given : flags.noService <;>
        simp [layer, withFlags, Flags.layer, Layer.over, given]
  | checkTemplates =>
      cases given : flags.checkTemplates <;>
        simp [layer, withFlags, Flags.layer, Layer.over, given]

/-- The truth value that a variable may have. -/
def truthOf? : String → Option Bool
  | "true" => some true
  | "false" => some false
  | _ => none

/-- A variable says something if it is set. -/
def Environment.layer (environment : Environment) : Layer
  | .catalogPath => environment Settings.catalogVariable
  | .defaultSchema => environment Settings.schemaVariable
  | .useService => (environment Settings.serviceVariable).bind truthOf?
  | .checkTemplates => (environment Settings.templatesVariable).bind truthOf?

namespace Settings

theorem eq_of_validated {settings result : Settings} (valid : settings.validated = .ok result) :
    result = settings := by
  unfold validated at valid
  split at valid
  · exact (Except.ok.inj valid).symm
  · cases valid

theorem flagVariable_eq_ok {environment : Environment} {name : String} {fallback value : Bool}
    (read : flagVariable environment name fallback = .ok value) :
    ((environment name).bind truthOf?).getD fallback = value := by
  unfold flagVariable at read
  split at read
  · rename_i unset
    cases read
    rw [unset]
    rfl
  · rename_i set
    cases read
    rw [set]
    rfl
  · rename_i set
    cases read
    rw [set]
    rfl
  · cases read

theorem layer_ofEnvironment {environment : Environment} {settings : Settings}
    (read : ofEnvironment environment = .ok settings) :
    settings.layer = environment.layer.over .standard := by
  unfold ofEnvironment at read
  obtain ⟨useService, service, read⟩ := Run.bind_eq_ok_iff_of_except.mp read
  obtain ⟨checkTemplates, templates, read⟩ := Run.bind_eq_ok_iff_of_except.mp read
  rw [eq_of_validated read, ← flagVariable_eq_ok service, ← flagVariable_eq_ok templates]
  exact Layer.layer_settings environment.layer

end Settings

/-! ## Settings files -/

/-- A field that may be missing. -/
def Document.Record.field {α : Type} (record : Record) (name : String)
    (reading : Document → Reading α) : Reading (Option α) :=
  record.withDefault name none fun value => some <$> reading value

theorem Document.Record.withDefault_eq_map {α : Type} (record : Record) (name : String)
    (fallback : α) (reading : Document → Reading α) :
    record.withDefault name fallback reading =
      (fun found => found.getD fallback) <$> record.field name reading := by
  unfold field withDefault
  cases List.lookup name record with
  | none => rfl
  | some value => simp

/-- Reads what a document says about the settings. -/
def Layer.ofDocument (document : Document) : Reading Layer := do
  let record ← document.record
    ["catalog_path", "default_schema", "use_service_clause", "validate_catalog"]
  let catalogPath ← record.field "catalog_path" Document.text
  let defaultSchema ← record.optionalText "default_schema"
  let useService ← record.field "use_service_clause" Document.truth
  let checkTemplates ← record.field "validate_catalog" Document.truth
  return fun
    | .catalogPath => catalogPath
    | .defaultSchema => defaultSchema
    | .useService => useService
    | .checkTemplates => checkTemplates

theorem Settings.ofDocument_eq_map (document : Document) :
    ofDocument document = Layer.settings <$> Layer.ofDocument document := by
  simp only [ofDocument, Layer.ofDocument, Document.Record.withDefault_eq_map, map_bind,
    bind_map_left, map_pure]
  rfl

theorem Source.read?_map {α β : Type} (source : Source) (f : α → β)
    (reading : Document → Reading α) :
    source.read? (fun document => f <$> reading document) = (source.read? reading).map f := by
  simp [read?, StateT.run'_eq, Function.comp_def]

/-- What the text of a settings file says. -/
def Layer.ofText? (text : String) : Option Layer :=
  (Yaml.read text).bind (·.read? ofDocument)

theorem Settings.layer_ofText {text : String} {settings : Settings}
    (read : ofText text = .ok settings) :
    ∃ said, Layer.ofText? text = some said ∧ settings.layer = said.over .standard := by
  have found : (Yaml.read text).bind (·.read? ofDocument) =
      (Layer.ofText? text).map Layer.settings := by
    rw [Layer.ofText?, Option.map_bind]
    congr 1
    funext source
    rw [funext ofDocument_eq_map, Source.read?_map]
    rfl
  unfold ofText at read
  rw [found] at read
  cases spoken : Layer.ofText? text with
  | none =>
      rw [spoken] at read
      cases read
  | some said =>
      rw [spoken] at read
      exact ⟨said, rfl, by rw [eq_of_validated read, Layer.layer_settings]⟩

/-- What is said by a settings file that may be missing, if one is named. -/
def Layer.ofFile : Option (Option String) → Layer
  | some (some text) => (ofText? text).getD fun _ => none
  | _ => fun _ => none

/-! ## Layers over each other -/

namespace Settings

theorem layer_merge (settings other : Settings) (setting : Setting) :
    (settings.merge other).layer setting =
      if setting = .defaultSchema then (other.layer setting).or (settings.layer setting)
      else other.layer setting := by
  cases setting <;> rfl

/-- The file says nothing of the setting and yet keeps the environment from saying
something. -/
def hides (file : Option (Option String)) (setting : Setting) : Bool :=
  file.isSome && decide (setting ≠ .defaultSchema) && (Layer.ofFile file setting).isNone

theorem layer_withFile {environment : Layer} {settings result : Settings}
    {file : Option (Option String)} (base : settings.layer = environment.over .standard)
    (read : settings.withFile file = .ok result) (setting : Setting) :
    result.layer setting =
      if hides file setting then Layer.standard setting
      else (Layer.ofFile file).over (environment.over .standard) setting := by
  match file with
  | none =>
      cases read
      rw [base]
      rfl
  | some none => cases read
  | some (some text) =>
      obtain ⟨other, otherRead, rfl⟩ := Run.map_eq_ok_iff.mp read
      obtain ⟨said, spoken, otherLayer⟩ := layer_ofText otherRead
      have file : Layer.ofFile (some (some text)) = said := by
        rw [Layer.ofFile, spoken]
        rfl
      rw [layer_merge, base, otherLayer]
      by_cases schema : setting = .defaultSchema
      · subst schema
        have silent : Layer.standard .defaultSchema = none := rfl
        simp [hides, Layer.over, file, silent]
      · cases value : said setting with
        | none => simp [hides, Layer.over, file, schema, value]
        | some value => simp [hides, Layer.over, file, schema, value]

/-- What is said of the settings if every layer is heard: the flags first, then
the file, then the environment. -/
def layered (environment : Environment) (file : Option (Option String)) (flags : Flags) : Layer :=
  flags.layer.over ((Layer.ofFile file).over (environment.layer.over .standard))

/-- A setting is what the uppermost layer that speaks of it says, unless a settings
file hides the environment's value and no flag is given: then it has its standard
value, so that the layers decide it only if the environment says nothing else. -/
theorem layer_of_resolve {environment : Environment} {file : Option (Option String)}
    {flags : Flags} {settings : Settings} (resolved : resolve environment file flags = .ok settings)
    (setting : Setting) :
    (settings.layer setting = layered environment file flags setting ↔
      (hides file setting = true → flags.layer setting = none →
        environment.layer.over .standard setting = Layer.standard setting)) ∧
      (hides file setting = true → flags.layer setting = none →
        settings.layer setting = Layer.standard setting) := by
  obtain ⟨base, baseRead, resolved⟩ := Run.bind_eq_ok_iff_of_except.mp resolved
  obtain ⟨merged, mergedRead, resolved⟩ := Run.bind_eq_ok_iff_of_except.mp resolved
  have mergedLayer := layer_withFile (layer_ofEnvironment baseRead) mergedRead setting
  rw [eq_of_validated resolved, layer_withFlags, layered, Layer.over, Layer.over, mergedLayer]
  cases flags.layer setting with
  | some value => simp
  | none =>
      cases hidden : hides file setting with
      | false => simp
      | true =>
          have silent : Layer.ofFile file setting = none := by
            simp only [hides, Bool.and_eq_true] at hidden
            exact Option.isNone_iff_eq_none.mp hidden.2
          simp [Layer.over, silent, eq_comm]

/-- An environment that speaks of the catalog and of the default schema. -/
def namingEnvironment : Environment := fun name =>
  if name = catalogVariable then some "env.yaml"
  else if name = schemaVariable then some "sales"
  else none

/-- A settings file that speaks of neither. -/
def silentFile : Option (Option String) :=
  some (some "validate_catalog: true")

/-- The settings of the two under a flag. -/
def silentlySettled : Settings where
  defaultSchema := some "sales"
  useService := false
  checkTemplates := true

theorem layers_silentlySettled :
    resolve namingEnvironment silentFile { noService := true } = .ok silentlySettled ∧
      (∀ setting ≠ .catalogPath, silentlySettled.layer setting =
        layered namingEnvironment silentFile { noService := true } setting) ∧
      silentlySettled.layer .catalogPath = Layer.standard .catalogPath := by
  have resolved :
      resolve namingEnvironment silentFile { noService := true } = .ok silentlySettled := by
    decide +kernel
  have hidden : ∀ setting, hides silentFile setting = true →
      setting = .catalogPath ∨ setting = .useService := by
    intro setting
    cases setting <;> decide +kernel
  refine ⟨resolved, ?_, (layer_of_resolve resolved .catalogPath).2 (by decide +kernel) rfl⟩
  intro setting other
  apply (layer_of_resolve resolved setting).1.mpr
  intro isHidden unflagged
  rcases hidden setting isHidden with rfl | rfl
  · exact absurd rfl other
  · cases unflagged

/-- The file leaves the catalog out, and still the environment's catalog is lost. -/
theorem not_layered_silentlySettled :
    resolve namingEnvironment silentFile { noService := true } = .ok silentlySettled ∧
      silentlySettled.layer .catalogPath ≠
        layered namingEnvironment silentFile { noService := true } .catalogPath := by
  decide +kernel

end Settings

end TripleTables
