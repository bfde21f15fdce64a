import TripleTables.Catalog.Template

/-!
# Catalogs

A catalog holds schemas, a schema tables, a table columns.  Every column of a
table in a catalog is backed by a triple template; the columns of a view have
none.  An index keeps the place of every table under its full name.
-/

namespace TripleTables

open TripleTables.Graph

/-- What is wrong with a catalog definition as a whole. -/
inductive DefinitionFault where
  | emptyName
  | noSchema
  | noColumns (schema table : String)
deriving DecidableEq, Repr

/-- The fault in words. -/
def DefinitionFault.text : DefinitionFault → String
  | .emptyName => "Catalog name cannot be empty"
  | .noSchema => "Catalog must contain at least one schema"
  | .noColumns schema table =>
      "Table `" ++ schema ++ "." ++ table ++
        "` has no columns\n  Context: While validating catalog definition"

/-- What can go wrong with a catalog. -/
inductive CatalogError where
  | ambiguous (ambiguity : Ambiguity)
  | malformed (error : TemplateError)
  | columnOutOfRange (table : Name) (index count : Nat)
  | duplicateColumn (table : Name) (column : String)
  | duplicateTable (schema table : String)
  | duplicateSchema (schema : String)
  /-- The catalog's file cannot be read. -/
  | unreadable
  /-- The catalog's text is not a catalog definition. -/
  | unparsable
  | invalid (fault : DefinitionFault)
deriving DecidableEq, Repr

/-- The error in words. -/
def CatalogError.message : CatalogError → String
  | .ambiguous ambiguity => ambiguity.message
  | .malformed error => error.message
  | .columnOutOfRange table index count =>
      "Column index " ++ toString index ++ " out of range for table `" ++ table.dotted ++
        "` with " ++ toString count ++ " columns"
  | .duplicateColumn table column =>
      "Duplicate column `" ++ column ++ "` in table `" ++ table.dotted ++ "`"
  | .duplicateTable schema table =>
      "Duplicate table `" ++ table ++ "` in schema `" ++ schema ++ "`"
  | .duplicateSchema schema => "Duplicate schema `" ++ schema ++ "`"
  | .unreadable => "Failed to read catalog file"
  | .unparsable => "Failed to parse catalog definition"
  | .invalid fault => "Invalid catalog definition: " ++ fault.text

/-! ## Columns -/

/-- A column of a table. -/
structure Column where
  name : Name
  sqlType : String
  nullable : Bool
  /-- The text of the column's template; a view's column has none. -/
  template : Option String
  remarks : Option String
deriving DecidableEq, Repr

namespace Column

/-- The SQL type of a column that declares none. -/
def defaultType : String := "VARCHAR"

/-- The narrowest segment of the column's name. -/
def shortName (column : Column) : String :=
  column.name.shortName

/-- The column's template, which has to have a hole for the value. -/
def readTemplate (column : Column) : Except TemplateError Template :=
  let owner := TemplateOwner.column column.name
  match column.template with
  | none => .error { template := "", fault := .absentTemplate, owner }
  | some source =>
      match Template.read source with
      | .error error => .error (error.ownedBy owner)
      | .ok template =>
          if template.usesObject then .ok template
          else .error { template := source, fault := .unusedObject, owner }

end Column

/-! ## Tables -/

/-- A table of a catalog, or a query that is shown as one. -/
inductive TableKind where
  | table
  | view
deriving DecidableEq, Repr

/-- A table with its columns in order. -/
structure Table where
  name : Name
  kind : TableKind
  /-- What fills the value hole of the table's own templates. -/
  iri : Option String
  /-- The texts of the table's own templates. -/
  templates : List String
  columns : List Column
  remarks : Option String
deriving DecidableEq, Repr

namespace Table

/-- The column at a position. -/
def columnAt (table : Table) (index : Nat) : Except CatalogError Column :=
  match table.columns[index]? with
  | some column => .ok column
  | none => .error (.columnOutOfRange table.name index table.columns.length)

/-- The first column with this short name. -/
def columnNamed? (table : Table) (name : String) : Option Column :=
  table.columns.find? (fun column => column.shortName == name)

/-- The position of the first column with this short name. -/
def columnIndex? (table : Table) (name : String) : Option Nat :=
  table.columns.findIdx? (fun column => column.shortName == name)

/-- The columns that a pattern covers, in order. -/
def findColumns (table : Table) (pattern : Name) : List Column :=
  table.columns.filter (fun column => pattern.covers column.name)

/-- The term that fills the value hole of the table's own templates. -/
def object? (table : Table) : Option Term :=
  table.iri.map Term.iri

/-- The table's own templates, comments left out. -/
def readTemplates (table : Table) : Except TemplateError (List Template) := do
  let templates ← table.templates.mapM fun source =>
    (Template.read source).mapError (·.ownedBy (.table table.name))
  return templates.filter (fun template => !template.isComment)

/-- The triples that the table's own templates give for a row. -/
def triples (table : Table) (subject : Variable) : Except TemplateError (List Triple) := do
  let templates ← table.readTemplates
  let filled ← templates.mapM (·.instantiate subject table.object?)
  return filled.filterMap id

/-- The virtual table with the given columns: name, SQL type, nullability. -/
def ofColumns (name : Name) (columns : List (String × String × Bool)) : Table :=
  { name
    kind := .view
    iri := none
    templates := []
    columns := columns.map fun (column, sqlType, nullable) =>
      { name := name.withColumn column, sqlType, nullable, template := none, remarks := none }
    remarks := none }

end Table

/-! ## Schemas and catalogs -/

/-- A schema with its tables in order. -/
structure Schema where
  name : Name
  tables : List Table
deriving DecidableEq, Repr

/-- The tables of a schema that a pattern covers, in order. -/
def Schema.findTables (schema : Schema) (pattern : Name) : List Table :=
  schema.tables.filter (fun table => pattern.covers table.name)

/-- A catalog with its schemas in order. -/
structure Catalog where
  name : String
  endpoint : Option String
  /-- The prefixes of the catalog with their namespaces. -/
  prefixes : List (String × String)
  schemas : List Schema
  /-- The places of the tables: the schema's position and the table's in it. -/
  tableIndex : NameMap (Nat × Nat)

namespace Catalog

/-- All tables, in order. -/
def tables (catalog : Catalog) : List Table :=
  catalog.schemas.flatMap Schema.tables

/-- The schemas that a pattern covers, in order. -/
def findSchemas (catalog : Catalog) (pattern : Name) : List Schema :=
  catalog.schemas.filter (fun schema => pattern.covers schema.name)

/-- The tables that a pattern covers, in order. -/
def findTables (catalog : Catalog) (pattern : Name) : List Table :=
  catalog.schemas.flatMap (·.findTables pattern)

/-- The columns that a pattern covers, in order. -/
def findColumns (catalog : Catalog) (pattern : Name) : List Column :=
  catalog.tables.flatMap (·.findColumns pattern)

/-- The table at a place of the catalog. -/
def tableAt? (catalog : Catalog) (place : Nat × Nat) : Option Table := do
  let schema ← catalog.schemas[place.1]?
  schema.tables[place.2]?

/-- The one table that a name means; its column segment does not count. -/
def lookupTable (catalog : Catalog) (name : Name) : Except Ambiguity (Option Table) := do
  let place ← catalog.tableIndex.find? name.withoutColumn
  return place.bind catalog.tableAt?

/-- The variable that stands for every hole when a catalog is checked. -/
def placeholder : Variable := Variable.ofText "placeholder"

/-- Fills the template of a column once, if it has one. -/
def checkColumn (column : Column) : Except TemplateError Unit :=
  if column.template.isSome then do
    let template ← column.readTemplate
    let _ ← template.instantiate placeholder (some (.variable placeholder))
  else .ok ()

/-- Fills every template of a table once. -/
def checkTable (table : Table) : Except TemplateError Unit := do
  let _ ← table.triples placeholder
  table.columns.forM checkColumn

/-- Fills every template of the catalog once, so that a malformed one is found
before any query uses it. -/
def validate (catalog : Catalog) : Except TemplateError Unit :=
  catalog.tables.forM checkTable

end Catalog

end TripleTables
