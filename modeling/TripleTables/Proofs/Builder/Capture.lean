import TripleTables.Proofs.Builder.Consistent
import TripleTables.Proofs.Catalog.Assembled
import TripleTables.Proofs.Graph.Spelling

/-!
# Variable capture

The rows of a binding and every registered column have a variable of their own
only if no two of their names are spelled alike.  Spelling forgets: characters
that a variable may not hold become underscores, an absent segment leaves no
trace, and a middle dot inside a segment looks like the end of it.  So the
variables are kept apart exactly when the words of the names are, and this is
certain where schemas, aliases and columns have plain names.
-/

namespace TripleTables

open TripleTables.Graph

/-! ## The words of a name -/

namespace Name

/-- The words of the variable for the name. -/
def words (name : Name) : List (List Char) :=
  Variable.words name.spelled.toList

/-- The segments from the schema on that are present. -/
def present (name : Name) : List String :=
  [name.schema, name.table, name.column].filterMap id

/-- Two names share their variable exactly when they have the same words. -/
theorem ofName_eq_iff (first second : Name) :
    Variable.ofName first = Variable.ofName second ↔ first.words = second.words :=
  Variable.ofText_eq_iff _ _

/-- The words of a name with plain segments are its segments. -/
theorem words_of_plain {name : Name} (nonempty : name.present ≠ [])
    (plain : ∀ text ∈ name.present, Variable.Plain text.toList) :
    name.words = name.present.map String.toList := by
  have spelling : name.spelled.toList =
      [Variable.middleDot].intercalate (name.present.map String.toList) :=
    String.toList_intercalate
  rw [words, spelling]
  refine Variable.words_intercalate (by simpa using nonempty) ?_
  intro piece member
  obtain ⟨text, inside, rfl⟩ := List.mem_map.mp member
  exact plain text inside

/-- The segment is present and plain. -/
def PlainSegment : Option String → Prop
  | none => False
  | some text => Variable.Plain text.toList

instance : DecidablePred PlainSegment
  | none => inferInstanceAs (Decidable False)
  | some text => inferInstanceAs (Decidable (Variable.Plain text.toList))

theorem PlainSegment.exists_eq_some {segment : Option String} (plain : PlainSegment segment) :
    ∃ text, segment = some text ∧ Variable.Plain text.toList := by
  cases segment with
  | none => exact plain.elim
  | some text => exact ⟨text, rfl, plain⟩

end Name

/-! ## Plain bindings -/

/-- The schema, the alias and the columns of the binding have plain names. -/
structure Binding.PlainNames (binding : Binding) : Prop where
  schema : Name.PlainSegment binding.name.schema
  tableAlias : Name.PlainSegment binding.name.table
  columns : ∀ column ∈ binding.table.columns, Name.PlainSegment column.name.column

instance : DecidablePred Binding.PlainNames := fun binding =>
  decidable_of_iff
    (Name.PlainSegment binding.name.schema ∧ Name.PlainSegment binding.name.table ∧
      ∀ column ∈ binding.table.columns, Name.PlainSegment column.name.column)
    ⟨fun ⟨schema, tableAlias, columns⟩ => ⟨schema, tableAlias, columns⟩,
      fun plain => ⟨plain.schema, plain.tableAlias, plain.columns⟩⟩

namespace Binding.PlainNames

variable {binding : Binding}

/-- The words for a row are the schema and the alias. -/
theorem words_name (plain : binding.PlainNames) (columnless : binding.name.column = none) :
    ∃ schema tableAlias, binding.name.table = some tableAlias ∧
      binding.name.words = [schema, tableAlias.toList] := by
  obtain ⟨schema, isSchema, plainSchema⟩ := plain.schema.exists_eq_some
  obtain ⟨tableAlias, isAlias, plainAlias⟩ := plain.tableAlias.exists_eq_some
  have present : binding.name.present = [schema, tableAlias] := by
    simp [Name.present, isSchema, isAlias, columnless]
  refine ⟨schema.toList, tableAlias, isAlias, ?_⟩
  rw [Name.words_of_plain (by simp [present]) (by simp [present, plainSchema, plainAlias]), present]
  rfl

/-- The words for a column are the schema, the alias and the column. -/
theorem words_columnName (plain : binding.PlainNames) {column : Column}
    (declared : column ∈ binding.table.columns) :
    ∃ schema tableAlias text, binding.name.table = some tableAlias ∧
      column.name.column = some text ∧
      (binding.columnName column.shortName).words =
        [schema, tableAlias.toList, text.toList] := by
  obtain ⟨schema, isSchema, plainSchema⟩ := plain.schema.exists_eq_some
  obtain ⟨tableAlias, isAlias, plainAlias⟩ := plain.tableAlias.exists_eq_some
  obtain ⟨text, isText, plainText⟩ := (plain.columns column declared).exists_eq_some
  have short : column.shortName = text := by
    simp [Column.shortName, Name.shortName, isText]
  have nonempty : text ≠ "" := by
    rintro rfl
    exact plainText.1 rfl
  have present : (binding.columnName column.shortName).present = [schema, tableAlias, text] := by
    simp [Name.present, Binding.columnName, Name.withColumn, isSchema, isAlias, short,
      Name.segment_some_of_ne_empty nonempty]
  refine ⟨schema.toList, tableAlias, text, isAlias, isText, ?_⟩
  rw [Name.words_of_plain (by simp [present])
    (by simp [present, plainSchema, plainAlias, plainText]), present]
  rfl

end Binding.PlainNames

namespace Builder

/-! ## Where bindings come from -/

theorem mem_tables_of_lookupTable {builder : Builder} {name : Name} {table : Table}
    (found : builder.lookupTable name = .ok (some table)) : table ∈ builder.catalog.tables := by
  unfold lookupTable at found
  cases looked : builder.catalog.lookupTable name with
  | error ambiguity => simp [looked, Except.mapError] at found
  | ok result =>
      simp only [looked, Except.mapError, Except.ok.injEq] at found
      subst found
      exact Catalog.mem_tables_of_lookupTable looked

theorem mem_tables_of_resolveTable {builder : Builder} {name : Name} {table : Table}
    (resolved : builder.resolveTable name = .ok table) : table ∈ builder.catalog.tables := by
  unfold resolveTable at resolved
  cases preferred : builder.lookupInDefault name with
  | error error => simp [preferred, bind, Except.bind] at resolved
  | ok result =>
      simp only [preferred, bind, Except.bind] at resolved
      cases result with
      | some found =>
          cases resolved
          unfold lookupInDefault at preferred
          split at preferred
          · exact mem_tables_of_lookupTable preferred
          · simp at preferred
      | none =>
          cases looked : builder.lookupTable name with
          | error error => simp [looked] at resolved
          | ok result =>
              simp only [looked] at resolved
              cases result with
              | none => contradiction
              | some found =>
                  cases resolved
                  exact mem_tables_of_lookupTable looked

/-- The bindings use tables of the catalog, under aliases that differ. -/
structure Bound (catalog : Catalog) (builder : Builder) : Prop where
  sameCatalog : builder.catalog = catalog
  tables : ∀ binding ∈ builder.bindings, binding.table ∈ catalog.tables
  columnless : ∀ binding ∈ builder.bindings, binding.name.column = none
  aliases : builder.bindings.Pairwise fun first second =>
    ∀ tableAlias, first.name.table = some tableAlias → second.name.table ≠ some tableAlias

theorem Bound.change {catalog : Catalog} {builder next : Builder} (bound : Bound catalog builder)
    (change : Change builder next) : Bound catalog next := by
  rcases change with binds | fills
  · rcases binds with @⟨tableName, table, tableAlias, optional, triples, resolved, free, _⟩
    refine ⟨bound.sameCatalog, ?_, ?_, ?_⟩
    · intro binding member
      rcases List.mem_append.mp member with old | new
      · exact bound.tables binding old
      · rw [List.mem_singleton.mp new, ← bound.sameCatalog]
        exact mem_tables_of_resolveTable resolved
    · intro binding member
      rcases List.mem_append.mp member with old | new
      · exact bound.columnless binding old
      · rw [List.mem_singleton.mp new]
        rfl
    · refine List.pairwise_append.mpr ⟨bound.aliases, List.pairwise_singleton _ _, ?_⟩
      intro old inOld new inNew shared oldAlias newAlias
      -- A binding that has a table segment goes by it.
      have known : old.tableAlias = shared := by
        simp [Binding.tableAlias, Name.shortName, bound.columnless old inOld, oldAlias]
      rw [List.mem_singleton.mp inNew] at newAlias
      have same : tableAlias = shared := by
        by_cases empty : tableAlias = ""
        · simp [nextBinding, Table.aliased, Name.ofSegments, Name.segment, empty] at newAlias
        · simpa [nextBinding, Table.aliased, Name.ofSegments,
            Name.segment_some_of_ne_empty empty] using newAlias
      exact free old inOld (known.trans same.symm)
  · obtain ⟨sameCatalog, sameBindings⟩ := fills.bindings_eq
    exact ⟨sameCatalog.trans bound.sameCatalog, by rw [sameBindings]; exact bound.tables,
      by rw [sameBindings]; exact bound.columnless, by rw [sameBindings]; exact bound.aliases⟩

theorem Reachable.bound {catalog : Catalog} {builder : Builder}
    (reachable : Reachable catalog builder) : Bound catalog builder :=
  reachable.keeps (fun _ _ => ⟨rfl, by simp, by simp, by simp⟩)
    fun _ _ change bound => bound.change change

/-! ## Captured variables -/

/-- No two rows or columns agree in what is read off them. -/
structure Separates {β : Type} (ofRow : Binding → β) (ofColumn : MentionedColumn → β)
    (builder : Builder) : Prop where
  rows : ∀ {i j : Nat} {first second : Binding}, builder.bindings[i]? = some first →
    builder.bindings[j]? = some second → ofRow first = ofRow second → i = j
  columns : ∀ {p q : Nat × Nat} {first second : MentionedColumn},
    builder.registered? p = some first → builder.registered? q = some second →
    ofColumn first = ofColumn second → p = q
  apart : ∀ {i : Nat} {p : Nat × Nat} {binding : Binding} {column : MentionedColumn},
    builder.bindings[i]? = some binding → builder.registered? p = some column →
    ofColumn column ≠ ofRow binding

/-- No two rows or columns share their variable. -/
def NoCapture (builder : Builder) : Prop :=
  builder.Separates Binding.subject MentionedColumn.var

/-- No two rows or columns have names with the same words. -/
def DistinctWords (builder : Builder) : Prop :=
  builder.Separates (fun binding => binding.name.words) (fun column => column.name.words)

/-- Every binding has plain names. -/
def PlainNames (builder : Builder) : Prop :=
  ∀ binding ∈ builder.bindings, binding.PlainNames

instance : DecidablePred PlainNames := fun builder =>
  inferInstanceAs (Decidable (∀ binding ∈ builder.bindings, binding.PlainNames))

theorem Consistent.var_of_registered? {builder : Builder} (consistent : Consistent builder)
    {place : Nat × Nat} {column : MentionedColumn}
    (found : builder.registered? place = some column) :
    column.var = Variable.ofName column.name := by
  obtain ⟨_, _, _, _, _, rfl⟩ := consistent.exists_of_registered? found
  rfl

/-- Variables are kept apart exactly when the words of their names are. -/
theorem Consistent.noCapture_iff {builder : Builder} (consistent : Consistent builder) :
    builder.NoCapture ↔ builder.DistinctWords := by
  have rows : ∀ first second : Binding,
      first.subject = second.subject ↔ first.name.words = second.name.words :=
    fun first second => Name.ofName_eq_iff first.name second.name
  have columns : ∀ {p q : Nat × Nat} {first second : MentionedColumn},
      builder.registered? p = some first → builder.registered? q = some second →
        (first.var = second.var ↔ first.name.words = second.name.words) := by
    intro p q first second isFirst isSecond
    rw [consistent.var_of_registered? isFirst, consistent.var_of_registered? isSecond,
      Name.ofName_eq_iff]
  have apart : ∀ {p : Nat × Nat} (binding : Binding) {column : MentionedColumn},
      builder.registered? p = some column →
        (column.var = binding.subject ↔ column.name.words = binding.name.words) := by
    intro p binding column isColumn
    rw [consistent.var_of_registered? isColumn, Binding.subject, Name.ofName_eq_iff]
  constructor
  · intro separate
    refine ⟨fun isFirst isSecond same => ?_, fun isFirst isSecond same => ?_,
      fun isBinding isColumn same => ?_⟩
    · exact separate.rows isFirst isSecond ((rows _ _).mpr same)
    · exact separate.columns isFirst isSecond ((columns isFirst isSecond).mpr same)
    · exact separate.apart isBinding isColumn ((apart _ isColumn).mpr same)
  · intro separate
    refine ⟨fun isFirst isSecond same => ?_, fun isFirst isSecond same => ?_,
      fun isBinding isColumn same => ?_⟩
    · exact separate.rows isFirst isSecond ((rows _ _).mp same)
    · exact separate.columns isFirst isSecond ((columns isFirst isSecond).mp same)
    · exact separate.apart isBinding isColumn ((apart _ isColumn).mp same)

/-- Bindings under one alias are one binding. -/
theorem Bound.eq_of_alias {catalog : Catalog} {builder : Builder} (bound : Bound catalog builder)
    {i j : Nat} {first second : Binding} {tableAlias : String}
    (isFirst : builder.bindings[i]? = some first) (isSecond : builder.bindings[j]? = some second)
    (firstAlias : first.name.table = some tableAlias)
    (secondAlias : second.name.table = some tableAlias) : i = j := by
  obtain ⟨inFirst, atFirst⟩ := List.getElem?_eq_some_iff.mp isFirst
  obtain ⟨inSecond, atSecond⟩ := List.getElem?_eq_some_iff.mp isSecond
  have apart := List.pairwise_iff_getElem.mp bound.aliases
  by_contra different
  rcases Nat.lt_or_gt_of_ne different with less | less
  · exact apart i j inFirst inSecond less tableAlias (by rw [atFirst, firstAlias])
      (by rw [atSecond, secondAlias])
  · exact apart j i inSecond inFirst less tableAlias (by rw [atSecond, secondAlias])
      (by rw [atFirst, firstAlias])

theorem Bound.distinctWords_of_plainNames {catalog : Catalog} {builder : Builder}
    (bound : Bound catalog builder) (consistent : Consistent builder)
    (distinctColumns : ∀ table ∈ catalog.tables, table.DistinctColumns)
    (plain : builder.PlainNames) : builder.DistinctWords := by
  have rowWords : ∀ {i : Nat} {binding : Binding}, builder.bindings[i]? = some binding →
      ∃ schema tableAlias, binding.name.table = some tableAlias ∧
        binding.name.words = [schema, tableAlias.toList] := by
    intro i binding isBinding
    have member := List.mem_of_getElem? isBinding
    exact (plain binding member).words_name (bound.columnless binding member)
  have columnWords : ∀ {place : Nat × Nat} {column : MentionedColumn},
      builder.registered? place = some column →
        ∃ binding declared schema tableAlias text,
          builder.bindings[place.1]? = some binding ∧
          binding.table.columns[place.2]? = some declared ∧
          binding.name.table = some tableAlias ∧ declared.name.column = some text ∧
          column.name.words = [schema, tableAlias.toList, text.toList] := by
    intro place column found
    obtain ⟨binding, declared, inGroup, isBinding, isDeclared, rfl⟩ :=
      consistent.exists_of_registered? found
    obtain ⟨schema, tableAlias, text, isAlias, isText, words⟩ :=
      (plain binding (List.mem_of_getElem? isBinding)).words_columnName
        (List.mem_of_getElem? isDeclared)
    exact ⟨binding, declared, schema, tableAlias, text, isBinding, isDeclared, isAlias, isText,
      words⟩
  refine ⟨?_, ?_, ?_⟩
  · intro i j first second isFirst isSecond same
    obtain ⟨schema, tableAlias, isAlias, words⟩ := rowWords isFirst
    obtain ⟨schema', tableAlias', isAlias', words'⟩ := rowWords isSecond
    have sameAlias : tableAlias = tableAlias' := by
      simp only [words, words', List.cons.injEq, String.toList_inj] at same
      exact same.2.1
    subst sameAlias
    exact bound.eq_of_alias isFirst isSecond isAlias isAlias'
  · intro p q first second isFirst isSecond same
    obtain ⟨binding, declared, schema, tableAlias, text, isBinding, isDeclared, isAlias, isText,
      words⟩ := columnWords isFirst
    obtain ⟨binding', declared', schema', tableAlias', text', isBinding', isDeclared', isAlias',
      isText', words'⟩ := columnWords isSecond
    have sameEnds : tableAlias = tableAlias' ∧ text = text' := by
      simp only [words, words', List.cons.injEq, String.toList_inj] at same
      exact ⟨same.2.1, same.2.2.1⟩
    obtain ⟨rfl, rfl⟩ := sameEnds
    have sameBinding : p.1 = q.1 := bound.eq_of_alias isBinding isBinding' isAlias isAlias'
    rw [← sameBinding, isBinding] at isBinding'
    cases isBinding'
    have distinct := distinctColumns _ (bound.tables binding (List.mem_of_getElem? isBinding))
    have sameColumn : p.2 = q.2 := by
      refine (List.getElem?_inj (by simpa using (List.getElem?_eq_some_iff.mp isDeclared).1)
        distinct).mp ?_
      rw [List.getElem?_map, List.getElem?_map, isDeclared, isDeclared', Option.map_some,
        Option.map_some, isText, isText']
    exact Prod.ext sameBinding sameColumn
  · intro i place binding column isBinding isColumn same
    obtain ⟨_, _, _, _, _, _, _, _, _, columnSpelling⟩ := columnWords isColumn
    obtain ⟨_, _, _, rowSpelling⟩ := rowWords isBinding
    rw [columnSpelling, rowSpelling] at same
    simpa using congrArg List.length same

/-- Over an assembled catalog, variables are kept apart exactly when the words
of their names are, and always where the names are plain. -/
theorem noCapture_iff_distinctWords {definition : CatalogDefinition} {catalog : Catalog}
    (assembled : definition.assemble = .ok catalog) {builder : Builder}
    (reachable : Reachable catalog builder) :
    (builder.NoCapture ↔ builder.DistinctWords) ∧ (builder.PlainNames → builder.NoCapture) := by
  have consistent := reachable.consistent
  refine ⟨consistent.noCapture_iff, fun plain => consistent.noCapture_iff.mpr ?_⟩
  exact reachable.bound.distinctWords_of_plainNames consistent
    (CatalogDefinition.distinctColumns_of_assemble assembled) plain

/-- A catalog of one table with one column. -/
def oneTable : CatalogDefinition :=
  { name := "cat"
    schemas :=
      [{ name := "s"
         tables :=
          [{ name := "foo"
             columns :=
              [{ name := "x", template := "\x7bsubject\x7d <http://e/x> \x7bobject\x7d ." }] }] }] }

/-- The table is bound under two aliases, and its column is registered for
both. -/
def boundTwice (first second : String) : List Operation :=
  [ .addTable { table := some "foo" } (some first) false
  , .addTable { table := some "foo" } (some second) false
  , .addColumn { table := some first, column := some "x" } false
  , .addColumn { table := some second, column := some "x" } false ]

/-- Two plain aliases keep the rows and the columns of one table apart. -/
theorem noCapture_boundTwice :
    ∃ catalog, oneTable.assemble = .ok catalog ∧
      (afterAll (boundTwice "a" "b") { catalog }).columns.length = 2 ∧
      (afterAll (boundTwice "a" "b") { catalog }).PlainNames ∧
      (afterAll (boundTwice "a" "b") { catalog }).NoCapture := by
  have plain : ∀ catalog, oneTable.assemble = .ok catalog →
      (afterAll (boundTwice "a" "b") { catalog }).PlainNames := by
    rintro _ ⟨⟩
    decide +kernel
  refine ⟨_, rfl, by decide +kernel, plain _ rfl, ?_⟩
  have assembled : oneTable.assemble = .ok _ := rfl
  exact (noCapture_iff_distinctWords assembled ((Reachable.empty none false).afterAll _)).2
    (plain _ rfl)

/-- Aliases that differ only in a character a variable may not hold share
their variables. -/
theorem captured_boundTwice :
    ∃ catalog, oneTable.assemble = .ok catalog ∧
      ¬ (afterAll (boundTwice "a b" "a_b") { catalog }).NoCapture := by
  refine ⟨_, rfl, fun separate => ?_⟩
  have same : 0 = 1 := separate.rows rfl rfl (by decide +kernel)
  exact absurd same (by decide)

end Builder

end TripleTables
