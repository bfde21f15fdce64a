import TripleTables.Proofs.Catalog.Assembled
import TripleTables.Proofs.Lookup
import TripleTables.Query.Builder

/-!
# The index of a catalog

A catalog keeps the place of every table under the table's name.  The index is
filled while tables are added to the tree of schemas, one entry at a time, and a
name that is already there stops the assembly.  So the index of an assembled
catalog mirrors the tree (`Catalog.Indexed`): it leads from the name of every table
to that very table and holds nothing else.

A table is looked up in the index only.  Since the index mirrors the tree, what is
looked up is what a scan of all tables finds (`Catalog.Indexed.lookupTable_eq`).  A
schema and a table segment leave at most one table, and therefore a default schema
decides for the tables it has and says nothing of others.
-/

namespace TripleTables

/-! ## Filling the index -/

namespace NameMap

variable {α β : Type}

theorem get?_eq_none_iff {map : NameMap α} {name : Name} :
    map.get? name = none ↔ name ∉ map.entries.map Prod.fst := by
  simp only [get?, Option.map_eq_none_iff, List.find?_eq_none, decide_eq_true_eq, List.mem_map,
    not_exists, not_and]

/-- An entry under a new name comes last. -/
theorem entries_insert {map : NameMap α} {name : Name} (fresh : map.get? name = none)
    (value : α) : (map.insert name value).entries = map.entries ++ [(name, value)] :=
  put_of_fresh (get?_eq_none_iff.mp fresh) value

theorem nodup_insert {map : NameMap α} {name : Name} (fresh : map.get? name = none) (value : α)
    (distinct : (map.entries.map Prod.fst).Nodup) :
    ((map.insert name value).entries.map Prod.fst).Nodup := by
  rw [entries_insert fresh, List.map_append]
  exact distinct.append (List.nodup_singleton _)
    (List.disjoint_singleton.mpr (get?_eq_none_iff.mp fresh))

/-- Following every value found leads to the one value of what is reached. -/
theorem only?_bind {values : List α} {others : List β} {follow : α → Option β}
    (reached : values.map follow = others.map some) (pattern : Name) :
    (do return (← only? pattern values).bind follow) = only? pattern others := by
  have same : values.length = others.length := by
    simpa using congrArg List.length reached
  rw [only?_eq, only?_eq, same]
  split
  · rfl
  · have first : values.head?.map follow = others.head?.map some := by
      rw [← List.head?_map, reached, List.head?_map]
    cases values with
    | nil =>
        cases others with
        | nil => rfl
        | cons other _ => cases first
    | cons value _ =>
        cases others with
        | nil => cases first
        | cons other _ => exact congrArg Except.ok (Option.some.inj first)

end NameMap

/-- The names of some tables of a schema with their places, where the first table
stands at a position of the schema. -/
def Table.placesFrom (schemaPosition position : Nat) (tables : List Table) :
    List (Name × (Nat × Nat)) :=
  (tables.zipIdx position).map fun entry => (entry.1.name, (schemaPosition, entry.2))

/-- The names of all tables of some schemas with their places, where the first
schema stands at a position of the catalog. -/
def Schema.placesFrom (position : Nat) (schemas : List Schema) : List (Name × (Nat × Nat)) :=
  (schemas.zipIdx position).flatMap fun entry => Table.placesFrom entry.2 0 entry.1.tables

namespace CatalogDefinition

/-- Adding tables adds their names and places to the index, in order. -/
theorem entries_of_addTables {catalog : String} {schema : SchemaDefinition}
    {schemaPosition : Nat} {definitions : List TableDefinition} {position : Nat}
    {index after : NameMap (Nat × Nat)} {tables : List Table}
    (added : addTables catalog schema schemaPosition definitions position index =
      .ok (tables, after)) :
    after.entries = index.entries ++ Table.placesFrom schemaPosition position tables ∧
      ((index.entries.map Prod.fst).Nodup → (after.entries.map Prod.fst).Nodup) := by
  induction definitions generalizing position index tables with
  | nil =>
      cases added
      simp [Table.placesFrom]
  | cons definition rest ih =>
      obtain ⟨table, others, fresh, made, later, rfl⟩ := exists_of_addTables_cons added
      obtain ⟨entries, distinct⟩ := ih later
      constructor
      · rw [entries, NameMap.entries_insert fresh, List.append_assoc, Table.placesFrom,
          Table.placesFrom, List.zipIdx_cons, List.map_cons,
          TableDefinition.name_table made, List.singleton_append]
      · exact fun before => distinct (NameMap.nodup_insert fresh _ before)

/-- Adding schemas adds the names and places of all their tables to the index, in
order. -/
theorem entries_of_addSchemas {catalog : String} {definitions : List SchemaDefinition}
    {position : Nat} {seen : List String} {index after : NameMap (Nat × Nat)}
    {schemas : List Schema}
    (added : addSchemas catalog definitions position seen index = .ok (schemas, after)) :
    after.entries = index.entries ++ Schema.placesFrom position schemas ∧
      ((index.entries.map Prod.fst).Nodup → (after.entries.map Prod.fst).Nodup) := by
  induction definitions generalizing position seen index schemas with
  | nil =>
      cases added
      simp [Schema.placesFrom]
  | cons definition rest ih =>
      obtain ⟨tables, between, others, made, later, rfl⟩ := exists_of_addSchemas_cons added
      obtain ⟨firstEntries, firstDistinct⟩ := entries_of_addTables made
      obtain ⟨entries, distinct⟩ := ih later
      constructor
      · rw [entries, firstEntries, List.append_assoc, Schema.placesFrom, Schema.placesFrom,
          List.zipIdx_cons, List.flatMap_cons]
      · exact fun before => distinct (firstDistinct before)

end CatalogDefinition

/-! ## The index as a mirror of the tree -/

namespace Catalog

/-- The index leads from the name of every table to that table, in the order of the
tables, and no name leads to two tables. -/
structure Indexed (catalog : Catalog) : Prop where
  mirror : catalog.tableIndex.entries.map (fun entry => (entry.1, catalog.tableAt? entry.2)) =
    catalog.tables.map fun table => (table.name, some table)
  distinct : (catalog.tableIndex.entries.map Prod.fst).Nodup

/-- At the places of the tables of a catalog stand these tables. -/
theorem map_tableAt?_placesFrom (catalog : Catalog) :
    (Schema.placesFrom 0 catalog.schemas).map
        (fun entry => (entry.1, catalog.tableAt? entry.2)) =
      catalog.tables.map fun table => (table.name, some table) := by
  have inSchema : ∀ entry ∈ catalog.schemas.zipIdx,
      (Table.placesFrom entry.2 0 entry.1.tables).map
          (fun entry => (entry.1, catalog.tableAt? entry.2)) =
        entry.1.tables.map fun table => (table.name, some table) := by
    rintro ⟨schema, i⟩ isSchema
    have schemaAt : catalog.schemas[i]? = some schema := List.mk_mem_zipIdx_iff_getElem?.mp isSchema
    have tableAt : ∀ entry ∈ schema.tables.zipIdx,
        (entry.1.name, catalog.tableAt? (i, entry.2)) = (entry.1.name, some entry.1) := by
      rintro ⟨table, j⟩ isTable
      have found : schema.tables[j]? = some table := List.mk_mem_zipIdx_iff_getElem?.mp isTable
      simp only [tableAt?, schemaAt, Option.bind_eq_bind, Option.bind_some, found]
    calc
      _ = schema.tables.zipIdx.map fun entry => (entry.1.name, some entry.1) := by
        rw [Table.placesFrom, List.map_map]
        exact List.map_congr_left tableAt
      _ = (schema.tables.zipIdx.map Prod.fst).map fun table => (table.name, some table) := by
        rw [List.map_map]
        rfl
      _ = _ := by rw [List.zipIdx_map_fst]
  calc
    _ = catalog.schemas.zipIdx.flatMap
          fun entry => entry.1.tables.map fun table => (table.name, some table) := by
      rw [Schema.placesFrom, List.map_flatMap]
      exact List.flatMap_congr inSchema
    _ = (catalog.schemas.zipIdx.map Prod.fst).flatMap
          fun schema => schema.tables.map fun table => (table.name, some table) := by
      rw [List.flatMap_map]
    _ = _ := by rw [List.zipIdx_map_fst, tables, List.map_flatMap]

end Catalog

/-- An assembled catalog is indexed. -/
theorem CatalogDefinition.indexed_of_assemble {definition : CatalogDefinition}
    {catalog : Catalog} (assembled : definition.assemble = .ok catalog) : catalog.Indexed := by
  obtain ⟨entries, distinct⟩ := entries_of_addSchemas (exists_of_assemble assembled)
  constructor
  · rw [entries]
    exact catalog.map_tableAt?_placesFrom
  · exact distinct List.nodup_nil

namespace Catalog

variable {catalog : Catalog}

theorem findTables_eq_filter (catalog : Catalog) (pattern : Name) :
    catalog.findTables pattern = catalog.tables.filter fun table => pattern.covers table.name := by
  rw [findTables, tables, List.filter_flatMap]
  rfl

/-- No two tables have the same name. -/
theorem Indexed.nodup_names (indexed : catalog.Indexed) :
    (catalog.tables.map Table.name).Nodup := by
  have names : catalog.tableIndex.entries.map Prod.fst = catalog.tables.map Table.name := by
    simpa [Function.comp_def] using congrArg (List.map Prod.fst) indexed.mirror
  exact names ▸ indexed.distinct

/-- The entries that a pattern covers lead to the tables that it covers. -/
theorem Indexed.map_tableAt?_filter (indexed : catalog.Indexed) (pattern : Name) :
    ((catalog.tableIndex.entries.filter fun entry => pattern.covers entry.1).map
        Prod.snd).map catalog.tableAt? = (catalog.findTables pattern).map some := by
  have filtered := congrArg
    (fun entries => (entries.filter fun entry => pattern.covers entry.1).map Prod.snd)
    indexed.mirror
  simpa only [List.filter_map, List.map_map, Function.comp_def, findTables_eq_filter] using filtered

/-- Looking a name up in the index is looking for the one table that it covers,
without its column segment. -/
theorem Indexed.lookupTable_eq (indexed : catalog.Indexed) (name : Name) :
    catalog.lookupTable name =
      NameMap.only? name.withoutColumn (catalog.findTables name.withoutColumn) := by
  rw [lookupTable, NameMap.find?_eq_only? indexed.distinct]
  exact NameMap.only?_bind (indexed.map_tableAt?_filter name.withoutColumn) name.withoutColumn

end Catalog

/-! ## Names of tables -/

theorem CatalogDefinition.segments_of_assemble {definition : CatalogDefinition}
    {catalog : Catalog} (assembled : definition.assemble = .ok catalog) {schema : Schema}
    (isSchema : schema ∈ catalog.schemas) {table : Table} (isTable : table ∈ schema.tables) :
    table.name.catalog = Name.segment (some definition.name) ∧
      table.name.schema = schema.name.schema ∧ table.name.column = none := by
  obtain ⟨schemaDefinition, _, named, made⟩ := exists_schema_of_assemble assembled schema isSchema
  obtain ⟨tableDefinition, _, tableMade⟩ := made table isTable
  rw [TableDefinition.name_table tableMade, named]
  exact ⟨rfl, rfl, rfl⟩

namespace Catalog

/-- The table stands in a schema of this name.  Empty text is no name, so no table
stands in a schema of that name. -/
def InSchema (catalog : Catalog) (name : String) (table : Table) : Prop :=
  ∃ schema ∈ catalog.schemas, schema.name.schema = some name ∧ table ∈ schema.tables

end Catalog

namespace CatalogDefinition

variable {definition : CatalogDefinition} {catalog : Catalog}

/-- The schema of a table is the schema segment of its name. -/
theorem inSchema_iff (assembled : definition.assemble = .ok catalog) {schema : String}
    {table : Table} :
    catalog.InSchema schema table ↔
      table ∈ catalog.tables ∧ table.name.schema = some schema := by
  constructor
  · rintro ⟨place, isSchema, named, isTable⟩
    exact ⟨List.mem_flatMap.mpr ⟨place, isSchema, isTable⟩,
      (segments_of_assemble assembled isSchema isTable).2.1.trans named⟩
  · rintro ⟨isTable, named⟩
    obtain ⟨place, isSchema, inSchema⟩ := List.mem_flatMap.mp isTable
    refine ⟨place, isSchema, ?_, inSchema⟩
    rw [← (segments_of_assemble assembled isSchema inSchema).2.1, named]

theorem not_inSchema_empty (assembled : definition.assemble = .ok catalog) (table : Table) :
    ¬ catalog.InSchema "" table := by
  rintro ⟨schema, isSchema, named, _⟩
  obtain ⟨schemaDefinition, _, isNamed, _⟩ := exists_schema_of_assemble assembled schema isSchema
  have kept : Name.segment (some schemaDefinition.name) = some "" := by
    rw [← named, isNamed, Name.ofSegments]
  simp [Name.segment, Option.filter_eq_some_iff] at kept

/-- A schema and a table segment leave at most one table: the catalog segment of
all tables is the same. -/
theorem length_findTables_le_one (assembled : definition.assemble = .ok catalog) {pattern : Name}
    (hasSchema : pattern.schema.isSome = true) (hasTable : pattern.table.isSome = true) :
    (catalog.findTables pattern).length ≤ 1 := by
  obtain ⟨schema, schemaIs⟩ := Option.isSome_iff_exists.mp hasSchema
  obtain ⟨table, tableIs⟩ := Option.isSome_iff_exists.mp hasTable
  have named : ∀ found ∈ catalog.findTables pattern, found.name =
      { catalog := Name.segment (some definition.name), schema := some schema,
        table := some table } := by
    intro found member
    rw [Catalog.findTables_eq_filter, List.mem_filter] at member
    obtain ⟨isTable, covered⟩ := member
    obtain ⟨place, isSchema, inSchema⟩ := List.mem_flatMap.mp isTable
    obtain ⟨sameCatalog, _, noColumn⟩ := segments_of_assemble assembled isSchema inSchema
    simp only [Name.covers, schemaIs, tableIs, Bool.and_eq_true, Name.admits_some] at covered
    obtain ⟨⟨⟨_, sameSchema⟩, sameTable⟩, _⟩ := covered
    rw [Name.mk.injEq]
    exact ⟨sameCatalog, sameSchema, sameTable, noColumn⟩
  have distinct : ((catalog.findTables pattern).map Table.name).Nodup := by
    rw [Catalog.findTables_eq_filter]
    exact (indexed_of_assemble assembled).nodup_names.sublist (List.filter_sublist.map _)
  match catalog.findTables pattern, named, distinct with
  | [], _, _ => exact Nat.zero_le _
  | [_], _, _ => exact Nat.le_refl _
  | first :: second :: rest, named, distinct =>
      simp [named first (by simp), named second (by simp)] at distinct

end CatalogDefinition

/-! ## What is looked up -/

/-- What is looked up under a name, said by the tables that a scan finds. -/
structure Catalog.LooksUp (catalog : Catalog) (name : Name) (found : List Table) : Prop where
  nothing_iff : catalog.lookupTable name = .ok none ↔ found.length = 0
  table_iff : ∀ table, catalog.lookupTable name = .ok (some table) ↔ found = [table]
  ambiguity_iff : ∀ ambiguity, catalog.lookupTable name = .error ambiguity ↔
    1 < found.length ∧ ambiguity = ⟨name.withoutColumn, found.length⟩

theorem Catalog.Indexed.looksUp {catalog : Catalog} (indexed : catalog.Indexed) (name : Name) :
    catalog.LooksUp name (catalog.findTables name.withoutColumn) := by
  have looked := indexed.lookupTable_eq name
  match catalog.findTables name.withoutColumn, looked with
  | [], looked => constructor <;> simp [looked, NameMap.only?]
  | [_], looked => constructor <;> simp [looked, NameMap.only?]
  | _ :: _ :: _, looked => constructor <;> simp [looked, NameMap.only?, eq_comm]

namespace Builder

/-- A name that means a table in the default schema means this table. -/
theorem resolveTable_of_lookupInDefault {builder : Builder} {name : Name} {table : Table}
    (preferred : builder.lookupInDefault name = .ok (some table)) :
    builder.resolveTable name = .ok table := by
  rw [resolveTable, preferred]
  rfl

/-- Where the default schema gives what the name gives by itself, or nothing, it
does not count. -/
theorem resolveTable_without_default {builder : Builder} {name : Name}
    (idle : builder.lookupInDefault name = .ok none ∨
      builder.lookupInDefault name = builder.lookupTable name) :
    builder.resolveTable name = { builder with defaultSchema := none }.resolveTable name := by
  have without : { builder with defaultSchema := none }.lookupInDefault name = .ok none := by
    unfold lookupInDefault
    split
    · contradiction
    · rfl
  have same : { builder with defaultSchema := none }.lookupTable name = builder.lookupTable name :=
    rfl
  rw [resolveTable, resolveTable, without, same]
  rcases idle with nothing | again
  · rw [nothing]
  · rw [again]
    cases builder.lookupTable name with
    | error error => rfl
    | ok found => cases found <;> rfl

end Builder

namespace CatalogDefinition

variable {definition : CatalogDefinition} {catalog : Catalog}

/-- A name without a schema segment covers, once it is given one, the tables that
it covers in that schema. -/
theorem mem_findTables_withSchema (assembled : definition.assemble = .ok catalog) {name : Name}
    (noSchema : name.schema = none) {schema : String} (nonempty : schema ≠ "") (table : Table) :
    table ∈ catalog.findTables (name.withSchema schema).withoutColumn ↔
      catalog.InSchema schema table ∧ name.withoutColumn.covers table.name = true := by
  simp only [Catalog.findTables_eq_filter, List.mem_filter, inSchema_iff assembled, Name.covers,
    Name.withoutColumn, Name.withSchema, Name.segment_some_of_ne_empty nonempty, noSchema,
    Name.admits_none, Name.admits_some, Bool.and_eq_true]
  constructor
  · rintro ⟨isTable, ⟨⟨sameCatalog, sameSchema⟩, sameTable⟩, _⟩
    exact ⟨⟨isTable, sameSchema⟩, ⟨⟨sameCatalog, trivial⟩, sameTable⟩, trivial⟩
  · rintro ⟨⟨isTable, sameSchema⟩, ⟨⟨sameCatalog, _⟩, sameTable⟩, _⟩
    exact ⟨isTable, ⟨⟨sameCatalog, sameSchema⟩, sameTable⟩, trivial⟩

/-- A default schema decides what a bare table name means if it has a table of that
name, and otherwise says nothing. -/
theorem resolveTable_in_default (assembled : definition.assemble = .ok catalog)
    {builder : Builder} (sameCatalog : builder.catalog = catalog) {schema : String}
    (isDefault : builder.defaultSchema = some schema) {name : Name}
    (hasTable : name.table.isSome = true) (noSchema : name.schema = none) :
    (∀ table, catalog.InSchema schema table → name.withoutColumn.covers table.name = true →
        builder.resolveTable name = .ok table) ∧
      ((∀ table, catalog.InSchema schema table → name.withoutColumn.covers table.name = false) →
        builder.resolveTable name = { builder with defaultSchema := none }.resolveTable name) := by
  have preferred : builder.lookupInDefault name = builder.lookupTable (name.withSchema schema) := by
    rw [Builder.lookupInDefault, noSchema, isDefault]
  by_cases empty : schema = ""
  · -- Empty text is no schema segment, so the name is looked up as it is.
    subst empty
    have unchanged : name.withSchema "" = name := by
      rw [Name.withSchema, Name.segment_some_empty, ← noSchema]
    rw [unchanged] at preferred
    exact ⟨fun table inside => absurd inside (not_inSchema_empty assembled table),
      fun _ => Builder.resolveTable_without_default (.inr preferred)⟩
  · have found := mem_findTables_withSchema assembled noSchema empty
    have hasSchema : (name.withSchema schema).withoutColumn.schema.isSome = true := by
      simp [Name.withoutColumn, Name.withSchema, Name.segment_some_of_ne_empty empty]
    have atMostOne := length_findTables_le_one assembled hasSchema hasTable
    have looksUp := (indexed_of_assemble assembled).looksUp (name.withSchema schema)
    rw [Builder.lookupTable, sameCatalog] at preferred
    constructor
    · intro table inside covered
      have isFound := (found table).mpr ⟨inside, covered⟩
      have alone : catalog.findTables (name.withSchema schema).withoutColumn = [table] := by
        obtain ⟨other, only⟩ := List.length_eq_one_iff.mp
          (Nat.le_antisymm atMostOne (List.length_pos_of_mem isFound))
        rw [only, List.mem_singleton] at isFound
        rw [only, isFound]
      apply Builder.resolveTable_of_lookupInDefault
      rw [preferred, (looksUp.table_iff table).mpr alone]
      rfl
    · intro nothing
      have none : catalog.findTables (name.withSchema schema).withoutColumn = [] := by
        refine List.eq_nil_iff_forall_not_mem.mpr fun table member => ?_
        obtain ⟨inside, covered⟩ := (found table).mp member
        rw [nothing table inside] at covered
        contradiction
      apply Builder.resolveTable_without_default
      left
      rw [preferred, looksUp.nothing_iff.mpr (List.length_eq_zero_iff.mpr none)]
      rfl

/-- In an assembled catalog, looking a name up agrees with scanning all tables for
it, a schema and a table segment leave at most one table, and a default schema
decides for the tables it has and for no others. -/
theorem lookups_agree_with_scan (assembled : definition.assemble = .ok catalog) :
    (∀ name : Name, catalog.LooksUp name (catalog.findTables name.withoutColumn)) ∧
      (∀ name : Name, name.schema.isSome = true → name.table.isSome = true →
        (catalog.findTables name.withoutColumn).length ≤ 1) ∧
      ∀ (builder : Builder) (schema : String) (name : Name), builder.catalog = catalog →
        builder.defaultSchema = some schema → name.table.isSome = true → name.schema = none →
        (∀ table, catalog.InSchema schema table →
            name.withoutColumn.covers table.name = true → builder.resolveTable name = .ok table) ∧
          ((∀ table, catalog.InSchema schema table →
              name.withoutColumn.covers table.name = false) →
            builder.resolveTable name =
              { builder with defaultSchema := none }.resolveTable name) :=
  ⟨(indexed_of_assemble assembled).looksUp,
    fun _ hasSchema hasTable => length_findTables_le_one assembled hasSchema hasTable,
    fun _ _ _ sameCatalog isDefault hasTable noSchema =>
      resolveTable_in_default assembled sameCatalog isDefault hasTable noSchema⟩

/-- Two schemas with a table `foo`, one of which has a table `bar` as well. -/
def sharedTable : CatalogDefinition :=
  { name := "cat"
    schemas := [⟨"s", [{ name := "foo" }, { name := "bar" }]⟩, ⟨"t", [{ name := "foo" }]⟩] }

/-- The table that both schemas have is ambiguous by its bare name and means the one
of the default schema; the other table is found, also where the default schema does
not have it. -/
theorem lookups_agree_with_scan_sharedTable :
    ∃ catalog foo bar, sharedTable.assemble = .ok catalog ∧
      catalog.lookupTable { table := some "foo" } = .error ⟨{ table := some "foo" }, 2⟩ ∧
      catalog.lookupTable { table := some "bar", column := some "x" } = .ok (some bar) ∧
      catalog.lookupTable { schema := some "t", table := some "bar" } = .ok none ∧
      (catalog.findTables { schema := some "t", table := some "foo" }).length ≤ 1 ∧
      foo.name = { catalog := some "cat", schema := some "t", table := some "foo" } ∧
      ({ catalog, defaultSchema := some "t" } : Builder).resolveTable { table := some "foo" } =
        .ok foo ∧
      ({ catalog, defaultSchema := some "t" } : Builder).resolveTable { table := some "bar" } =
        ({ catalog } : Builder).resolveTable { table := some "bar" } := by
  have scanned : ∀ catalog, sharedTable.assemble = .ok catalog →
      (catalog.findTables { table := some "foo" }).length = 2 ∧
        (catalog.findTables { table := some "bar" }).length = 1 ∧
        (catalog.findTables { schema := some "t", table := some "bar" }).length = 0 ∧
        (∃ foo ∈ catalog.tables, foo.name =
          { catalog := some "cat", schema := some "t", table := some "foo" }) ∧
        ∀ table ∈ catalog.tables, table.name.schema = some "t" →
          ({ table := some "bar" } : Name).covers table.name = false := by
    rintro _ ⟨⟩
    decide +kernel
  obtain ⟨catalog, assembled⟩ : ∃ catalog, sharedTable.assemble = .ok catalog := ⟨_, rfl⟩
  obtain ⟨two, one, zero, ⟨foo, isTable, fooNamed⟩, noBar⟩ := scanned catalog assembled
  obtain ⟨bar, onlyBar⟩ := List.length_eq_one_iff.mp one
  obtain ⟨looksUp, atMostOne, inDefault⟩ := lookups_agree_with_scan assembled
  refine ⟨catalog, foo, bar, assembled, ?_, ?_, ?_, ?_, fooNamed, ?_, ?_⟩
  · exact ((looksUp { table := some "foo" }).ambiguity_iff _).mpr
      ⟨two ▸ Nat.one_lt_two, congrArg (Ambiguity.mk _) two.symm⟩
  · exact ((looksUp { table := some "bar", column := some "x" }).table_iff bar).mpr onlyBar
  · exact (looksUp { schema := some "t", table := some "bar" }).nothing_iff.mpr zero
  · exact atMostOne { schema := some "t", table := some "foo" } rfl rfl
  · refine (inDefault _ "t" _ rfl rfl rfl rfl).1 foo ?_ ?_
    · exact (inSchema_iff assembled).mpr ⟨isTable, by rw [fooNamed]⟩
    · rw [fooNamed]
      rfl
  · refine (inDefault _ "t" _ rfl rfl rfl rfl).2 fun table inside => ?_
    obtain ⟨isTable, inT⟩ := (inSchema_iff assembled).mp inside
    exact noBar table isTable inT

end CatalogDefinition

end TripleTables
