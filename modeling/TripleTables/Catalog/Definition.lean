import TripleTables.Catalog.Basic
import TripleTables.Text.Blank

/-!
# Catalog definitions

The plain data a catalog is made of.  `CatalogDefinition.assemble` turns it
into a catalog and refuses repeated names; `CatalogDefinition.build` makes some
checks on the whole before that.
-/

namespace TripleTables

/-- A column as it is defined. -/
structure ColumnDefinition where
  name : String
  sqlType : String := Column.defaultType
  nullable : Bool := false
  template : String
  remarks : Option String := none
deriving DecidableEq, Repr

/-- A table as it is defined. -/
structure TableDefinition where
  name : String
  iri : Option String := none
  templates : List String := []
  remarks : Option String := none
  columns : List ColumnDefinition := []
deriving DecidableEq, Repr

/-- A schema as it is defined. -/
structure SchemaDefinition where
  name : String
  tables : List TableDefinition := []
deriving DecidableEq, Repr

/-- A catalog as it is defined. -/
structure CatalogDefinition where
  name : String
  endpoint : Option String := none
  prefixes : List (String × String) := []
  schemas : List SchemaDefinition := []
deriving DecidableEq, Repr

/-- The prefixes with one more; they are kept in the order of their texts, and
a later namespace replaces an earlier one. -/
def insertPrefixed (text target : String) :
    List (String × String) → List (String × String)
  | [] => [(text, target)]
  | first :: rest =>
      if text = first.1 then (text, target) :: rest
      else if text < first.1 then (text, target) :: first :: rest
      else first :: insertPrefixed text target rest

/-- Prefixes in the order of their texts; of two with one text the later
counts. -/
def sortPrefixes (entries : List (String × String)) : List (String × String) :=
  entries.foldl (fun sorted entry => insertPrefixed entry.1 entry.2 sorted) []

/-- The column of a table. -/
def ColumnDefinition.column (definition : ColumnDefinition) (table : Name) : Column :=
  { name := table.withColumn definition.name
    sqlType := definition.sqlType
    nullable := definition.nullable
    template := some definition.template
    remarks := definition.remarks }

/-- The first text that already stood earlier in the list. -/
def firstRepeated? (seen : List String) : List String → Option String
  | [] => none
  | text :: rest => if seen.contains text then some text else firstRepeated? (text :: seen) rest

namespace TableDefinition

/-- The full name of the table. -/
def fullName (definition : TableDefinition) (catalog schema : String) : Name :=
  Name.ofSegments (some catalog) (some schema) (some definition.name) none

/-- The table with its columns, whose names have to differ. -/
def table (definition : TableDefinition) (catalog schema : String) :
    Except CatalogError Table :=
  let name := definition.fullName catalog schema
  match firstRepeated? [] (definition.columns.map ColumnDefinition.name) with
  | some column => .error (.duplicateColumn name column)
  | none =>
      .ok
        { name
          kind := .table
          iri := definition.iri
          templates := definition.templates
          columns := definition.columns.map (·.column name)
          remarks := definition.remarks }

end TableDefinition

namespace CatalogDefinition

/-- Tables with the index of their places. -/
abbrev Indexed := List Table × NameMap (Nat × Nat)

/-- Adds the tables of one schema, from position `position` on. -/
def addTables (catalog : String) (schema : SchemaDefinition) (schemaPosition : Nat) :
    List TableDefinition → Nat → NameMap (Nat × Nat) → Except CatalogError Indexed
  | [], _, index => .ok ([], index)
  | definition :: rest, position, index => do
      let name := definition.fullName catalog schema.name
      if (index.get? name).isSome then
        throw (.duplicateTable schema.name definition.name)
      let table ← definition.table catalog schema.name
      let (tables, index) ←
        addTables catalog schema schemaPosition rest (position + 1)
          (index.insert name (schemaPosition, position))
      return (table :: tables, index)

/-- Adds schemas, from position `position` on; `seen` holds the names of the
schemas before them. -/
def addSchemas (catalog : String) :
    List SchemaDefinition → Nat → List String → NameMap (Nat × Nat) →
      Except CatalogError (List Schema × NameMap (Nat × Nat))
  | [], _, _, index => .ok ([], index)
  | definition :: rest, position, seen, index => do
      if seen.contains definition.name then
        throw (.duplicateSchema definition.name)
      let (tables, index) ← addTables catalog definition position definition.tables 0 index
      let (schemas, index) ←
        addSchemas catalog rest (position + 1) (definition.name :: seen) index
      let name := Name.ofSegments (some catalog) (some definition.name) none none
      return (⟨name, tables⟩ :: schemas, index)

/-- The catalog of a definition; a repeated name of a schema, of a table in a
schema or of a column in a table is refused. -/
def assemble (definition : CatalogDefinition) : Except CatalogError Catalog := do
  let (schemas, tableIndex) ←
    addSchemas definition.name definition.schemas 0 [] NameMap.empty
  return { name := definition.name
           endpoint := definition.endpoint
           prefixes := definition.prefixes
           schemas
           tableIndex }

/-- The first table without columns, with its schema. -/
def emptyTable? (definition : CatalogDefinition) : Option (String × String) :=
  definition.schemas.findSome? fun schema =>
    (schema.tables.find? (fun table => table.columns.isEmpty)).map fun table =>
      (schema.name, table.name)

/-- A catalog has a name and a schema, and its tables have columns. -/
def check (definition : CatalogDefinition) : Except CatalogError Unit :=
  if (Text.trim definition.name.toList).isEmpty then .error (.invalid .emptyName)
  else if definition.schemas.isEmpty then .error (.invalid .noSchema)
  else
    match definition.emptyTable? with
    | some (schema, table) => .error (.invalid (.noColumns schema table))
    | none => .ok ()

/-- The catalog of a definition that has been checked. -/
def build (definition : CatalogDefinition) : Except CatalogError Catalog := do
  definition.check
  definition.assemble

end CatalogDefinition

end TripleTables
