import Mathlib.Data.List.Nodup
import TripleTables.Catalog.Definition

/-!
# Assembled catalogs

Every table of an assembled catalog is made from its definition, so what the
checks say of the definition holds of the catalog: the columns of a table differ
in their last segment, each has a template, and no table of a checked definition
is without columns.  A table that is looked up in a catalog is one of the
catalog's tables.
-/

namespace TripleTables

/-- Nothing is repeated exactly when the texts differ from each other and from
those that were seen before. -/
theorem firstRepeated?_eq_none_iff (seen texts : List String) :
    firstRepeated? seen texts = none ↔ texts.Nodup ∧ ∀ text ∈ texts, text ∉ seen := by
  induction texts generalizing seen with
  | nil => simp [firstRepeated?]
  | cons text rest ih =>
      rw [firstRepeated?]
      by_cases old : text ∈ seen
      · simp [old]
      · rw [if_neg (by simpa using old), ih, List.nodup_cons]
        constructor
        · rintro ⟨distinct, fresh⟩
          refine ⟨⟨fun later => fresh text later (by simp), distinct⟩, ?_⟩
          intro other member
          rcases List.mem_cons.mp member with rfl | later
          · exact old
          · exact fun earlier => fresh other later (by simp [earlier])
        · rintro ⟨⟨notLater, distinct⟩, fresh⟩
          refine ⟨distinct, ?_⟩
          intro other later earlier
          rcases List.mem_cons.mp earlier with rfl | before
          · exact notLater later
          · exact fresh other (by simp [later]) before

@[simp]
theorem Name.segment_some_empty : Name.segment (some "") = none :=
  rfl

theorem Name.segment_some_of_ne_empty {text : String} (nonempty : text ≠ "") :
    Name.segment (some text) = some text := by
  simp [Name.segment, Option.filter_some, nonempty]

/-- Different texts are kept as different segments: only empty text is absent. -/
theorem Name.segment_some_injective :
    Function.Injective (fun text : String => Name.segment (some text)) := by
  intro first second same
  by_cases firstEmpty : first = ""
  · by_cases secondEmpty : second = ""
    · rw [firstEmpty, secondEmpty]
    · simp [firstEmpty, segment_some_of_ne_empty secondEmpty] at same
  · by_cases secondEmpty : second = ""
    · simp [secondEmpty, segment_some_of_ne_empty firstEmpty] at same
    · simpa [segment_some_of_ne_empty firstEmpty, segment_some_of_ne_empty secondEmpty] using same

/-- The columns of the table differ in their last segment. -/
def Table.DistinctColumns (table : Table) : Prop :=
  (table.columns.map (fun column => column.name.column)).Nodup

theorem TableDefinition.columns_table {definition : TableDefinition} {catalog schema : String}
    {table : Table} (made : definition.table catalog schema = .ok table) :
    table.columns = definition.columns.map (·.column (definition.fullName catalog schema)) := by
  unfold TableDefinition.table at made
  split at made
  · contradiction
  · cases made
    rfl

theorem TableDefinition.name_table {definition : TableDefinition} {catalog schema : String}
    {table : Table} (made : definition.table catalog schema = .ok table) :
    table.name = definition.fullName catalog schema := by
  unfold TableDefinition.table at made
  split at made
  · contradiction
  · cases made
    rfl

theorem TableDefinition.distinctColumns_table {definition : TableDefinition}
    {catalog schema : String} {table : Table}
    (made : definition.table catalog schema = .ok table) : table.DistinctColumns := by
  unfold TableDefinition.table at made
  split at made
  · contradiction
  · rename_i unrepeated
    have distinct := ((firstRepeated?_eq_none_iff _ _).mp unrepeated).1
    cases made
    have segments := distinct.map Name.segment_some_injective
    simpa [Table.DistinctColumns, Function.comp_def, ColumnDefinition.column, Name.withColumn]
      using segments

namespace CatalogDefinition

/-- Adding tables puts the first one into the index, if its name is new, and then
adds the others. -/
theorem exists_of_addTables_cons {catalog : String} {schema : SchemaDefinition}
    {schemaPosition : Nat} {definition : TableDefinition} {rest : List TableDefinition}
    {position : Nat} {index after : NameMap (Nat × Nat)} {tables : List Table}
    (added : addTables catalog schema schemaPosition (definition :: rest) position index =
      .ok (tables, after)) :
    ∃ table others, index.get? (definition.fullName catalog schema.name) = none ∧
      definition.table catalog schema.name = .ok table ∧
      addTables catalog schema schemaPosition rest (position + 1)
        (index.insert (definition.fullName catalog schema.name) (schemaPosition, position)) =
          .ok (others, after) ∧
      tables = table :: others := by
  simp only [addTables] at added
  split at added
  · contradiction
  · rename_i fresh
    rw [Bool.not_eq_true, Option.isSome_eq_false_iff, Option.isNone_iff_eq_none] at fresh
    cases made : definition.table catalog schema.name with
    | error error => simp [made, bind, Except.bind] at added
    | ok table =>
        cases later : addTables catalog schema schemaPosition rest (position + 1)
            (index.insert (definition.fullName catalog schema.name)
              (schemaPosition, position)) with
        | error error => simp [made, later, bind, Except.bind] at added
        | ok others =>
            simp only [made, later, bind, Except.bind] at added
            cases added
            exact ⟨table, others.1, fresh, rfl, rfl, rfl⟩

/-- Adding schemas adds the tables of the first one and then the other schemas. -/
theorem exists_of_addSchemas_cons {catalog : String} {definition : SchemaDefinition}
    {rest : List SchemaDefinition} {position : Nat} {seen : List String}
    {index after : NameMap (Nat × Nat)} {schemas : List Schema}
    (added : addSchemas catalog (definition :: rest) position seen index =
      .ok (schemas, after)) :
    ∃ tables between others,
      addTables catalog definition position definition.tables 0 index = .ok (tables, between) ∧
      addSchemas catalog rest (position + 1) (definition.name :: seen) between =
        .ok (others, after) ∧
      schemas =
        ⟨Name.ofSegments (some catalog) (some definition.name) none none, tables⟩ :: others := by
  simp only [addSchemas] at added
  split at added
  · contradiction
  · cases made : addTables catalog definition position definition.tables 0 index with
    | error error => simp [made, bind, Except.bind] at added
    | ok first =>
        cases later : addSchemas catalog rest (position + 1) (definition.name :: seen)
            first.2 with
        | error error => simp [made, later, bind, Except.bind] at added
        | ok others =>
            simp only [made, later, bind, Except.bind] at added
            cases added
            exact ⟨first.1, first.2, others.1, rfl, later, rfl⟩

/-- Every table that is added is made from one of the definitions. -/
theorem exists_definition_of_addTables {catalog : String} {schema : SchemaDefinition}
    {schemaPosition : Nat} {definitions : List TableDefinition} {position : Nat}
    {index after : NameMap (Nat × Nat)} {tables : List Table}
    (added : addTables catalog schema schemaPosition definitions position index =
      .ok (tables, after)) :
    ∀ table ∈ tables, ∃ definition ∈ definitions,
      definition.table catalog schema.name = .ok table := by
  induction definitions generalizing position index tables with
  | nil =>
      cases added
      simp
  | cons definition rest ih =>
      obtain ⟨first, others, _, made, later, rfl⟩ := exists_of_addTables_cons added
      intro table member
      rcases List.mem_cons.mp member with rfl | inRest
      · exact ⟨definition, List.mem_cons_self, made⟩
      · obtain ⟨other, isOther, otherMade⟩ := ih later table inRest
        exact ⟨other, List.mem_cons_of_mem _ isOther, otherMade⟩

/-- Every schema that is added has the name of one of the definitions, and its
tables are made from those of that definition. -/
theorem exists_definition_of_addSchemas {catalog : String} {definitions : List SchemaDefinition}
    {position : Nat} {seen : List String} {index after : NameMap (Nat × Nat)}
    {schemas : List Schema}
    (added : addSchemas catalog definitions position seen index = .ok (schemas, after)) :
    ∀ schema ∈ schemas, ∃ definition ∈ definitions,
      schema.name = Name.ofSegments (some catalog) (some definition.name) none none ∧
      ∀ table ∈ schema.tables, ∃ tableDefinition ∈ definition.tables,
        tableDefinition.table catalog definition.name = .ok table := by
  induction definitions generalizing position seen index schemas with
  | nil =>
      cases added
      simp
  | cons definition rest ih =>
      obtain ⟨tables, _, others, made, later, rfl⟩ := exists_of_addSchemas_cons added
      intro schema member
      rcases List.mem_cons.mp member with rfl | inRest
      · exact ⟨definition, List.mem_cons_self, rfl, exists_definition_of_addTables made⟩
      · obtain ⟨other, isOther, otherMade⟩ := ih later schema inRest
        exact ⟨other, List.mem_cons_of_mem _ isOther, otherMade⟩

/-- Assembling a catalog adds all its schemas. -/
theorem exists_of_assemble {definition : CatalogDefinition} {catalog : Catalog}
    (assembled : definition.assemble = .ok catalog) :
    addSchemas definition.name definition.schemas 0 [] NameMap.empty =
      .ok (catalog.schemas, catalog.tableIndex) := by
  unfold assemble at assembled
  cases made : addSchemas definition.name definition.schemas 0 [] NameMap.empty with
  | error error => simp [made, bind, Except.bind] at assembled
  | ok result =>
      simp only [made, bind, Except.bind] at assembled
      cases assembled
      rfl

/-- Every schema of an assembled catalog is made from its definition. -/
theorem exists_schema_of_assemble {definition : CatalogDefinition} {catalog : Catalog}
    (assembled : definition.assemble = .ok catalog) :
    ∀ schema ∈ catalog.schemas, ∃ schemaDefinition ∈ definition.schemas,
      schema.name =
        Name.ofSegments (some definition.name) (some schemaDefinition.name) none none ∧
      ∀ table ∈ schema.tables, ∃ tableDefinition ∈ schemaDefinition.tables,
        tableDefinition.table definition.name schemaDefinition.name = .ok table :=
  exists_definition_of_addSchemas (exists_of_assemble assembled)

/-- Every table of an assembled catalog is made from its definition. -/
theorem exists_definition_of_assemble {definition : CatalogDefinition} {catalog : Catalog}
    (assembled : definition.assemble = .ok catalog) :
    ∀ table ∈ catalog.tables, ∃ schema ∈ definition.schemas,
      ∃ tableDefinition ∈ schema.tables,
        tableDefinition.table definition.name schema.name = .ok table := by
  intro table member
  obtain ⟨schema, inSchemas, inTables⟩ := List.mem_flatMap.mp member
  obtain ⟨schemaDefinition, isDefined, _, made⟩ :=
    exists_schema_of_assemble assembled schema inSchemas
  exact ⟨schemaDefinition, isDefined, made table inTables⟩

/-- The columns of every table of an assembled catalog differ. -/
theorem distinctColumns_of_assemble {definition : CatalogDefinition} {catalog : Catalog}
    (assembled : definition.assemble = .ok catalog) :
    ∀ table ∈ catalog.tables, table.DistinctColumns := by
  intro table member
  obtain ⟨_, _, _, _, made⟩ := exists_definition_of_assemble assembled table member
  exact TableDefinition.distinctColumns_table made

/-- Every column of an assembled catalog has a template. -/
theorem isSome_template_of_assemble {definition : CatalogDefinition} {catalog : Catalog}
    (assembled : definition.assemble = .ok catalog) :
    ∀ table ∈ catalog.tables, ∀ column ∈ table.columns, column.template.isSome = true := by
  intro table member column declared
  obtain ⟨_, _, tableDefinition, _, made⟩ := exists_definition_of_assemble assembled table member
  rw [TableDefinition.columns_table made] at declared
  obtain ⟨columnDefinition, _, rfl⟩ := List.mem_map.mp declared
  rfl

/-- A definition that passes the check has no table without columns. -/
theorem columns_ne_nil_of_check {definition : CatalogDefinition}
    (checked : definition.check = .ok ()) :
    ∀ schema ∈ definition.schemas, ∀ table ∈ schema.tables, table.columns ≠ [] := by
  intro schema isSchema table isTable
  have noEmptyTable : definition.emptyTable? = none := by
    unfold check at checked
    split at checked
    · contradiction
    · split at checked
      · contradiction
      · split at checked
        · contradiction
        · assumption
  have inSchema := List.findSome?_eq_none_iff.mp noEmptyTable schema isSchema
  rw [Option.map_eq_none_iff, List.find?_eq_none] at inSchema
  simpa using inSchema table isTable

/-- Every table of a catalog whose definition has been checked has columns. -/
theorem columns_ne_nil_of_build {definition : CatalogDefinition} {catalog : Catalog}
    (built : definition.build = .ok catalog) : ∀ table ∈ catalog.tables, table.columns ≠ [] := by
  unfold build at built
  cases checked : definition.check with
  | error error => simp [checked, bind, Except.bind] at built
  | ok _ =>
      simp only [checked, bind, Except.bind] at built
      intro table member
      obtain ⟨schema, isSchema, tableDefinition, isTable, made⟩ :=
        exists_definition_of_assemble built table member
      rw [TableDefinition.columns_table made]
      simpa using columns_ne_nil_of_check checked schema isSchema tableDefinition isTable

end CatalogDefinition

theorem Catalog.mem_tables_of_tableAt? {catalog : Catalog} {place : Nat × Nat} {table : Table}
    (found : catalog.tableAt? place = some table) : table ∈ catalog.tables := by
  simp only [tableAt?, Option.bind_eq_bind, Option.bind_eq_some_iff] at found
  obtain ⟨schema, inSchemas, inTables⟩ := found
  exact List.mem_flatMap.mpr
    ⟨schema, List.mem_of_getElem? inSchemas, List.mem_of_getElem? inTables⟩

/-- A table that is looked up is one of the catalog's. -/
theorem Catalog.mem_tables_of_lookupTable {catalog : Catalog} {name : Name} {table : Table}
    (found : catalog.lookupTable name = .ok (some table)) : table ∈ catalog.tables := by
  unfold lookupTable at found
  cases indexed : catalog.tableIndex.find? name.withoutColumn with
  | error ambiguity => simp [indexed, bind, Except.bind] at found
  | ok place =>
      simp only [indexed, bind, Except.bind, pure, Except.pure, Except.ok.injEq] at found
      obtain ⟨there, _, here⟩ := Option.bind_eq_some_iff.mp found
      exact mem_tables_of_tableAt? here

end TripleTables
