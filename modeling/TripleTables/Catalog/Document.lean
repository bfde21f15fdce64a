import TripleTables.Catalog.Definition
import TripleTables.Document.Reading
import TripleTables.Yaml.Node

/-!
# Catalog definitions in documents

The fields of a catalog file.  A field that is not known is passed over.
-/

namespace TripleTables

open Document

/-- Reads a column. -/
def ColumnDefinition.ofDocument (document : Document) : Reading ColumnDefinition := do
  let record ← document.record ["name", "type", "nullable", "template", "remarks"]
  return { name := ← record.required "name" text
           sqlType := ← record.withDefault "type" Column.defaultType text
           nullable := ← record.withDefault "nullable" false truth
           template := ← record.required "template" text
           remarks := ← record.optionalText "remarks" }

/-- Reads a table. -/
def TableDefinition.ofDocument (document : Document) : Reading TableDefinition := do
  let record ← document.record ["name", "iri", "templates", "remarks", "columns"]
  return { name := ← record.required "name" text
           iri := ← record.optionalText "iri"
           templates := ← record.withDefault "templates" [] (list text)
           remarks := ← record.optionalText "remarks"
           columns := ← record.withDefault "columns" [] (list ColumnDefinition.ofDocument) }

/-- Reads a schema. -/
def SchemaDefinition.ofDocument (document : Document) : Reading SchemaDefinition := do
  let record ← document.record ["name", "tables"]
  return { name := ← record.required "name" text
           tables := ← record.withDefault "tables" [] (list TableDefinition.ofDocument) }

/-- Reads a catalog. -/
def CatalogDefinition.ofDocument (document : Document) : Reading CatalogDefinition := do
  let record ← document.record ["name", "sparql_endpoint", "prefixes", "schemas"]
  return { name := ← record.required "name" text
           endpoint := ← record.optionalText "sparql_endpoint"
           prefixes := sortPrefixes (← record.withDefault "prefixes" [] texts)
           schemas := ← record.withDefault "schemas" [] (list SchemaDefinition.ofDocument) }

namespace Catalog

/-- The catalog of a source. -/
def ofSource (source : Source) : Except CatalogError Catalog :=
  match source.read? CatalogDefinition.ofDocument with
  | some definition => definition.build
  | none => .error .unparsable

/-- The catalog of a value of JSON. -/
def ofJson (json : Json) : Except CatalogError Catalog :=
  ofSource { root := json.document }

/-- The catalog of a text. -/
def ofText (text : String) : Except CatalogError Catalog :=
  match Yaml.read text with
  | some source => ofSource source
  | none => .error .unparsable

/-- The catalog of a file that may be missing, its templates checked if that is
asked for. -/
def load (file : Option String) (checkTemplates : Bool) : Except CatalogError Catalog :=
  match file with
  | none => .error .unreadable
  | some text => do
      let catalog ← ofText text
      if checkTemplates then
        catalog.validate.mapError .malformed
      return catalog

end Catalog

end TripleTables
