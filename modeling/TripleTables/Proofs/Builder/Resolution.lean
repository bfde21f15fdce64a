import TripleTables.Proofs.Builder.Failures
import TripleTables.Proofs.Lookup

/-!
# What a column name means

A builder offers every column of every binding, under the name of the binding
with the column's own name.  Where all aliases and columns have a name, no two
offers share one: aliases differ, and so do the columns of a table.  So a column
name is resolved as its pattern reads: it means the one offer that it covers,
and it is refused where it covers none or several.
-/

namespace TripleTables

open TripleTables.Graph

/-- The last segment of a column of an assembled catalog is a text as it is
kept. -/
theorem CatalogDefinition.exists_segment_of_assemble {definition : CatalogDefinition}
    {catalog : Catalog} (assembled : definition.assemble = .ok catalog) :
    ∀ table ∈ catalog.tables, ∀ column ∈ table.columns,
      ∃ text, column.name.column = Name.segment (some text) := by
  intro table member column declared
  obtain ⟨_, _, tableDefinition, _, made⟩ := exists_definition_of_assemble assembled table member
  rw [TableDefinition.columns_table made] at declared
  obtain ⟨columnDefinition, _, rfl⟩ := List.mem_map.mp declared
  exact ⟨columnDefinition.name, rfl⟩

/-- The name of a column in the query: the catalog, the schema and the alias of
the binding, and the column's own name. -/
def Binding.fullName (binding : Binding) (column : Column) : Name :=
  { binding.name with column := column.name.column }

namespace Builder

/-! ## Faults of templates -/

/-- The error is about the template of the column.  Its text may have been
trimmed. -/
def BlamesColumn (column : Column) (error : TemplateError) : Prop :=
  ∃ source, column.template = some source ∧
    (error.template = source ∨ error.template = String.ofList (Text.trim source.toList))

theorem template_of_read {source : String} {error : TemplateError}
    (failed : Template.read source = .error error) :
    error.template = source ∨ error.template = String.ofList (Text.trim source.toList) := by
  unfold Template.read at failed
  dsimp only at failed
  split at failed
  · contradiction
  · split at failed
    · cases failed
      exact .inr rfl
    · split at failed
      · cases failed
        exact .inl rfl
      · contradiction

theorem source_of_read {source : String} {template : Template}
    (read : Template.read source = .ok template) : template.source = source := by
  unfold Template.read at read
  dsimp only at read
  split at read
  · cases read
    rfl
  · split at read
    · contradiction
    · split at read
      · contradiction
      · cases read
        rfl

/-- A template that has been read for a column is the column's. -/
theorem source_of_readTemplate {column : Column} {template : Template}
    (read : column.readTemplate = .ok template) : column.template = some template.source := by
  unfold Column.readTemplate at read
  dsimp only at read
  split at read
  · contradiction
  · rename_i source isSource
    split at read
    · contradiction
    · rename_i found
      split at read
      · cases read
        rw [isSource, source_of_read found]
      · contradiction

theorem blamesColumn_of_readTemplate {column : Column} {error : TemplateError}
    (present : column.template.isSome = true) (failed : column.readTemplate = .error error) :
    BlamesColumn column error := by
  obtain ⟨source, isSource⟩ := Option.isSome_iff_exists.mp present
  refine ⟨source, isSource, ?_⟩
  simp only [Column.readTemplate, isSource] at failed
  split at failed
  · rename_i unreadable
    cases failed
    exact (template_of_read unreadable :)
  · split at failed
    · contradiction
    · cases failed
      exact .inl rfl

/-- A column whose triple cannot be made has a template that is to blame. -/
theorem blamesColumn_of_columnTriple {binding : Binding} {column : Column} {v : Variable}
    {error : TemplateError} (present : column.template.isSome = true)
    (failed : columnTriple binding column v = .error error) : BlamesColumn column error := by
  unfold columnTriple at failed
  rcases Run.bind_eq_error_iff.mp failed with unread | ⟨template, read, unfilled⟩
  · exact blamesColumn_of_readTemplate present unread
  · refine ⟨template.source, source_of_readTemplate read, .inl ?_⟩
    rcases Run.bind_eq_error_iff.mp unfilled with misfilled | ⟨triple, _, comment⟩
    · unfold Template.instantiate at misfilled
      cases filled : Template.fillBody binding.subject (some (.variable v)) template.body with
      | ok result => simp [filled, Except.mapError] at misfilled
      | error fault =>
          rw [filled] at misfilled
          cases misfilled
          rfl
    · cases triple with
      | some triple => cases comment
      | none =>
          cases comment
          rfl

/-! ## Registering a column of a binding -/

/-- A column of a binding is registered, unless its template is to blame. -/
theorem Consistent.registerColumn_eq {builder : Builder} (consistent : Consistent builder)
    {place : Nat × Nat} {binding : Binding} {column : Column}
    (bound : builder.bindings[place.1]? = some binding)
    (declared : binding.table.columns[place.2]? = some column) (optional : Bool) :
    (∃ error, columnTriple binding column (binding.columnVariable column) = .error error ∧
        registerColumn place optional builder = .error (.malformed error) builder) ∨
      ∃ triple blocks inGroup,
        columnTriple binding column (binding.columnVariable column) = .ok triple ∧
        builder.placeColumn binding column.nullable optional triple = .ok (blocks, inGroup) ∧
        registerColumn place optional builder =
          .ok (binding.columnVariable column)
            (builder.withColumn place (mention binding column inGroup) blocks) := by
  rcases registerColumn_spec place optional builder with
    ⟨error, _, failed⟩ | ⟨other, otherColumn, triple, blocks, inGroup, isOther, isOtherColumn,
      filled, placed, registered⟩
  · cases filled : columnTriple binding column (binding.columnVariable column) with
    | error fault =>
        refine .inl ⟨fault, rfl, ?_⟩
        rw [Binding.columnVariable] at filled
        simp only [registerColumn, Run.get_bind_apply, bindingAt, bound, Run.build_liftExcept_ok,
          pure_bind, Table.columnAt, declared, Except.mapError, filled,
          Run.build_liftExcept_error, Run.throw_bind, Run.throw_apply]
    | ok triple =>
        -- Its group stands among the blocks, so the triple can be placed.
        obtain ⟨result, placed⟩ :=
          consistent.exists_placeColumn bound column.nullable optional triple
        rw [Binding.columnVariable] at filled
        simp only [registerColumn, Run.get_bind_apply, bindingAt, bound, Run.build_liftExcept_ok,
          pure_bind, Table.columnAt, declared, Except.mapError, filled, placed,
          Run.set_bind_apply, Run.pure_apply] at failed
        contradiction
  · rw [bound] at isOther
    cases isOther
    rw [declared] at isOtherColumn
    cases isOtherColumn
    exact .inr ⟨triple, blocks, inGroup, filled, placed, registered⟩

theorem addColumn_of_unresolved {builder : Builder} {name : Name} {error : QueryError}
    (unresolved : builder.resolveColumn name = .error error) (optional : Bool) :
    addColumn name optional builder = .error error builder := by
  simp [addColumn, unresolved]

/-- A name that means a column of a binding is given its variable, unless the
template is to blame; the column is registered then, if it was not before. -/
theorem Consistent.addColumn_eq {builder : Builder} (consistent : Consistent builder)
    {name : Name} {place : Nat × Nat} {binding : Binding} {column : Column}
    (resolved : builder.resolveColumn name = .ok place)
    (bound : builder.bindings[place.1]? = some binding)
    (declared : binding.table.columns[place.2]? = some column) (optional : Bool) :
    (∃ error, columnTriple binding column (binding.columnVariable column) = .error error ∧
        addColumn name optional builder = .error (.malformed error) builder) ∨
      ∃ triple next inGroup,
        columnTriple binding column (binding.columnVariable column) = .ok triple ∧
        addColumn name optional builder = .ok (binding.columnVariable column) next ∧
        next.registered? place = some (mention binding column inGroup) := by
  rcases addColumn_spec name optional builder with
    ⟨error, unresolved, _⟩ | ⟨other, kept, isOther, known, ran⟩ | ⟨other, isOther, fresh, ran⟩
  · cases resolved.symm.trans unresolved
  · cases resolved.symm.trans isOther
    obtain ⟨position, indexed, isKept⟩ := consistent.registered?_eq_some_iff.mp known
    obtain ⟨ownBinding, ownColumn, triple, inGroup, isBinding, isColumn, filled, isMention⟩ :=
      consistent.mentioned indexed
    cases bound.symm.trans isBinding
    cases declared.symm.trans isColumn
    cases isKept.symm.trans isMention
    exact .inr ⟨triple, builder, inGroup, filled, ran, known⟩
  · cases resolved.symm.trans isOther
    rcases consistent.registerColumn_eq bound declared optional with
      ⟨error, unfilled, failed⟩ | ⟨triple, blocks, inGroup, filled, placed, registered⟩
    · exact .inl ⟨error, unfilled, ran.trans failed⟩
    · have next := consistent.column (.intro fresh bound declared filled placed)
      refine .inr ⟨triple, _, inGroup, filled, ran.trans registered, ?_⟩
      exact next.registered?_eq_some_iff.mpr
        ⟨builder.columns.length, by simp [withColumn], by simp [withColumn]⟩

/-! ## Offers -/

/-- A column of a bound table. -/
structure Offer where
  binding : Binding
  /-- The position of the column in its table. -/
  position : Nat
  column : Column

namespace Offer

/-- The place of the column among all bindings. -/
def place (offer : Offer) : Nat × Nat :=
  (offer.binding.id, offer.position)

/-- The name of the column in the query. -/
def name (offer : Offer) : Name :=
  offer.binding.fullName offer.column

/-- The variable of the column. -/
def var (offer : Offer) : Variable :=
  Variable.ofName offer.name

end Offer

/-- The columns of one binding. -/
def offersOf (binding : Binding) : List Offer :=
  binding.table.columns.mapIdx fun position column => ⟨binding, position, column⟩

/-- The columns of all bindings. -/
def offers (builder : Builder) : List Offer :=
  builder.bindings.flatMap offersOf

/-- The columns of all bindings that a name covers. -/
def meant (builder : Builder) (name : Name) : List Offer :=
  builder.offers.filter fun offer => name.covers offer.name

/-- All aliases, and all columns of bound tables, have a name. -/
structure FullyNamed (builder : Builder) : Prop where
  aliases : ∀ binding ∈ builder.bindings, binding.name.table ≠ none
  columns : ∀ binding ∈ builder.bindings, ∀ column ∈ binding.table.columns,
    column.name.column ≠ none

instance : DecidablePred FullyNamed := fun builder =>
  decidable_of_iff
    ((∀ binding ∈ builder.bindings, binding.name.table ≠ none) ∧
      ∀ binding ∈ builder.bindings, ∀ column ∈ binding.table.columns, column.name.column ≠ none)
    ⟨fun ⟨aliases, columns⟩ => ⟨aliases, columns⟩, fun named => ⟨named.aliases, named.columns⟩⟩

theorem mem_offersOf_iff {binding : Binding} {offer : Offer} :
    offer ∈ offersOf binding ↔
      offer.binding = binding ∧ binding.table.columns[offer.position]? = some offer.column := by
  simp only [offersOf, List.mem_mapIdx]
  constructor
  · rintro ⟨position, inside, rfl⟩
    exact ⟨rfl, List.getElem?_eq_getElem inside⟩
  · rintro ⟨rfl, declared⟩
    obtain ⟨inside, same⟩ := List.getElem?_eq_some_iff.mp declared
    exact ⟨offer.position, inside, by rw [same]⟩

theorem map_name_offersOf (binding : Binding) :
    (offersOf binding).map Offer.name = binding.table.columns.map binding.fullName := by
  apply List.ext_getElem
  · simp [offersOf]
  · intro position _ _
    simp [offersOf, Offer.name]

/-- An offer stands at its place. -/
theorem Consistent.stands_of_mem_offers {builder : Builder} (consistent : Consistent builder)
    {offer : Offer} (offered : offer ∈ builder.offers) :
    builder.bindings[offer.place.1]? = some offer.binding ∧
      offer.binding.table.columns[offer.place.2]? = some offer.column := by
  obtain ⟨binding, isBinding, ofBinding⟩ := List.mem_flatMap.mp offered
  obtain ⟨rfl, declared⟩ := mem_offersOf_iff.mp ofBinding
  obtain ⟨i, found⟩ := List.mem_iff_getElem?.mp isBinding
  refine ⟨?_, declared⟩
  rw [Offer.place, consistent.ids found]
  exact found

/-- A name is given the variable of the column that is offered, which is
registered then, or the template of that column is to blame. -/
def Yields (builder : Builder) (name : Name) (optional : Bool) (offer : Offer) : Prop :=
  (∃ kept next, addColumn name optional builder = .ok offer.var next ∧
      next.registered? offer.place = some kept ∧ kept.name = offer.name ∧
      kept.var = offer.var) ∨
    ∃ error, addColumn name optional builder = .error (.malformed error) builder ∧
      BlamesColumn offer.column error

/-- The place of the one column that a name means among candidates. -/
def resolveAmong (map : NameMap (Nat × Nat)) (name : Name) : Except QueryError (Nat × Nat) := do
  match ← (map.find? name).mapError .ambiguous with
  | some place => return place
  | none => throw (.unknownColumn name)

/-- The variable of the column that a name means among candidates. -/
def addColumnAmong (map : NameMap (Nat × Nat)) (name : Name) (optional : Bool) :
    Build Variable := do
  let builder ← get
  let place ← liftExcept (resolveAmong map name)
  match builder.registered? place with
  | some column => return column.var
  | none => registerColumn place optional

/-! ## No two offers share a name -/

section Assembled

variable {definition : CatalogDefinition} {catalog : Catalog} {builder : Builder}
  (assembled : definition.assemble = .ok catalog) (reachable : Reachable catalog builder)
  (named : FullyNamed builder)

include assembled reachable named

theorem FullyNamed.exists_text {offer : Offer} (offered : offer ∈ builder.offers) :
    ∃ text, offer.column.name.column = some text ∧ text ≠ "" := by
  obtain ⟨bound, declared⟩ := reachable.consistent.stands_of_mem_offers offered
  have isBinding := List.mem_of_getElem? bound
  have isColumn := List.mem_of_getElem? declared
  obtain ⟨text, kept⟩ := CatalogDefinition.exists_segment_of_assemble assembled _
    (reachable.bound.tables _ isBinding) _ isColumn
  have nonempty : text ≠ "" := by
    rintro rfl
    exact named.columns _ isBinding _ isColumn kept
  exact ⟨text, kept.trans (Name.segment_some_of_ne_empty nonempty), nonempty⟩

/-- The name under which an offer is kept. -/
theorem FullyNamed.columnName_eq {offer : Offer} (offered : offer ∈ builder.offers) :
    offer.binding.columnName offer.column.shortName = offer.name := by
  obtain ⟨text, kept, nonempty⟩ := named.exists_text assembled reachable offered
  simp [Binding.columnName, Column.shortName, Name.shortName, Name.withColumn, kept, Offer.name,
    Binding.fullName, Name.segment_some_of_ne_empty nonempty]

theorem FullyNamed.columnNames_eq {binding : Binding} (isBinding : binding ∈ builder.bindings) :
    binding.columnNames = (offersOf binding).map Offer.name := by
  rw [map_name_offersOf, Binding.columnNames]
  refine List.map_congr_left fun column declared => ?_
  obtain ⟨position, found⟩ := List.mem_iff_getElem?.mp declared
  have offered : (⟨binding, position, column⟩ : Offer) ∈ builder.offers :=
    List.mem_flatMap.mpr ⟨binding, isBinding, mem_offersOf_iff.mpr ⟨rfl, found⟩⟩
  exact named.columnName_eq assembled reachable offered

theorem FullyNamed.nodup_offers : (builder.offers.map Offer.name).Nodup := by
  have names : builder.offers.map Offer.name =
      builder.bindings.flatMap fun binding => binding.table.columns.map binding.fullName := by
    rw [offers, List.map_flatMap]
    exact List.flatMap_congr fun binding _ => map_name_offersOf binding
  rw [names, List.nodup_flatMap]
  constructor
  · intro binding isBinding
    -- The columns of a table differ in their last segment.
    have distinct := CatalogDefinition.distinctColumns_of_assemble assembled _
      (reachable.bound.tables binding isBinding)
    apply List.Nodup.of_map Name.column
    rw [List.map_map]
    exact distinct
  · refine reachable.bound.aliases.imp_of_mem ?_
    intro first second isFirst _ apart name inFirst inSecond
    obtain ⟨tableAlias, isAlias⟩ := Option.ne_none_iff_exists'.mp (named.aliases first isFirst)
    obtain ⟨column, _, rfl⟩ := List.mem_map.mp inFirst
    obtain ⟨other, _, same⟩ := List.mem_map.mp inSecond
    have sameAlias : (second.fullName other).table = (first.fullName column).table :=
      congrArg Name.table same
    exact apart tableAlias isAlias (sameAlias.trans isAlias)

/-- The candidates are the offers, and none is lost. -/
theorem FullyNamed.entries_candidates :
    builder.candidates.entries = builder.offers.map fun offer => (offer.name, offer.place) := by
  have listed : builder.bindings.flatMap bindingCandidates =
      builder.offers.map fun offer => (offer.name, offer.place) := by
    rw [offers, List.map_flatMap]
    apply List.flatMap_congr
    intro binding isBinding
    rw [bindingCandidates, named.columnNames_eq assembled reachable isBinding]
    apply List.ext_getElem
    · simp
    · intro position _ _
      simp [offersOf, Offer.place]
  rw [candidates, listed, NameMap.entries_ofList]
  rw [List.map_map]
  exact named.nodup_offers assembled reachable

theorem FullyNamed.nodup_candidates : (builder.candidates.entries.map Prod.fst).Nodup := by
  rw [named.entries_candidates assembled reachable, List.map_map]
  exact named.nodup_offers assembled reachable

/-- A name means the one offer that it covers. -/
theorem FullyNamed.resolveColumn_cases (name : Name) :
    (builder.meant name = [] ∧ builder.resolveColumn name = .error (.unknownColumn name)) ∨
      (∃ offer, builder.meant name = [offer] ∧ builder.resolveColumn name = .ok offer.place) ∨
      (1 < (builder.meant name).length ∧
        builder.resolveColumn name = .error (.ambiguous ⟨name, (builder.meant name).length⟩)) := by
  have found : builder.candidates.find? name =
      NameMap.only? name ((builder.meant name).map Offer.place) := by
    rw [NameMap.find?_eq_only? (named.nodup_candidates assembled reachable),
      named.entries_candidates assembled reachable, List.filter_map, List.map_map]
    rfl
  rw [NameMap.only?_eq, List.length_map] at found
  cases several : builder.meant name with
  | nil =>
      refine .inl ⟨rfl, ?_⟩
      rw [several] at found
      rw [resolveColumn, found]
      rfl
  | cons offer rest =>
      rw [several] at found
      cases rest with
      | nil =>
          refine .inr (.inl ⟨offer, rfl, ?_⟩)
          rw [resolveColumn, found]
          rfl
      | cons second rest =>
          refine .inr (.inr ⟨by simp, ?_⟩)
          rw [resolveColumn, found, if_pos (by simp)]
          rfl

/-- The one offer that a name means is given. -/
theorem FullyNamed.yields {name : Name} {offer : Offer} (offered : offer ∈ builder.offers)
    (resolved : builder.resolveColumn name = .ok offer.place) (optional : Bool) :
    builder.Yields name optional offer := by
  have consistent := reachable.consistent
  have keptName := named.columnName_eq assembled reachable offered
  have keptVar : offer.binding.columnVariable offer.column = offer.var :=
    congrArg Variable.ofName keptName
  obtain ⟨bound, declared⟩ := consistent.stands_of_mem_offers offered
  rcases consistent.addColumn_eq resolved bound declared optional with
    ⟨error, unfilled, failed⟩ | ⟨_, next, inGroup, _, ran, registered⟩
  · have ofCatalog := reachable.bound.tables _ (List.mem_of_getElem? bound)
    have present := CatalogDefinition.isSome_template_of_assemble assembled _ ofCatalog _
      (List.mem_of_getElem? declared)
    exact .inr ⟨error, failed, blamesColumn_of_columnTriple present unfilled⟩
  · rw [keptVar] at ran
    exact .inl ⟨_, next, ran, registered, keptName, keptVar⟩

/-- What becomes of a name depends on the number of offers that it covers. -/
theorem FullyNamed.addColumn_cases (name : Name) (optional : Bool) :
    (builder.meant name = [] ∧
        addColumn name optional builder = .error (.unknownColumn name) builder) ∨
      (∃ offer, builder.meant name = [offer] ∧ builder.Yields name optional offer) ∨
      (1 < (builder.meant name).length ∧
        addColumn name optional builder =
          .error (.ambiguous ⟨name, (builder.meant name).length⟩) builder) := by
  rcases named.resolveColumn_cases assembled reachable name with
    ⟨none, unresolved⟩ | ⟨offer, one, resolved⟩ | ⟨several, unresolved⟩
  · exact .inl ⟨none, addColumn_of_unresolved unresolved optional⟩
  · have member : offer ∈ builder.meant name := by simp [one]
    have offered : offer ∈ builder.offers := List.mem_of_mem_filter member
    exact .inr (.inl ⟨offer, one, named.yields assembled reachable offered resolved optional⟩)
  · exact .inr (.inr ⟨several, addColumn_of_unresolved unresolved optional⟩)

/-! ## The order of the candidates -/

omit assembled reachable named in
theorem addColumn_eq_among (name : Name) (optional : Bool) (builder : Builder) :
    addColumn name optional builder = addColumnAmong builder.candidates name optional builder :=
  rfl

/-- The candidates may stand in any order. -/
theorem FullyNamed.addColumnAmong_of_perm {map : NameMap (Nat × Nat)}
    (same : map.entries.Perm builder.candidates.entries) (name : Name) (optional : Bool) :
    addColumnAmong map name optional builder = addColumn name optional builder := by
  rw [addColumn_eq_among, addColumnAmong, addColumnAmong, resolveAmong, resolveAmong,
    NameMap.find?_of_perm (named.nodup_candidates assembled reachable) same]

end Assembled

/-- A column name is unknown exactly when it covers no column of a binding, and
ambiguous, with their number, exactly when it covers several.  If it covers one,
that column is given or its template is to blame.  The order of the candidates
does not count. -/
theorem addColumn_resolves {definition : CatalogDefinition} {catalog : Catalog}
    (assembled : definition.assemble = .ok catalog) {builder : Builder}
    (reachable : Reachable catalog builder) (named : FullyNamed builder) (name : Name)
    (optional : Bool) :
    (∀ unknown,
      (∃ next, addColumn name optional builder = .error (.unknownColumn unknown) next) ↔
        (builder.meant name).length = 0 ∧ unknown = name) ∧
    (∀ ambiguity,
      (∃ next, addColumn name optional builder = .error (.ambiguous ambiguity) next) ↔
        1 < (builder.meant name).length ∧ ambiguity = ⟨name, (builder.meant name).length⟩) ∧
    (∀ offer, builder.meant name = [offer] → builder.Yields name optional offer) ∧
    ∀ map : NameMap (Nat × Nat), map.entries.Perm builder.candidates.entries →
      addColumnAmong map name optional builder = addColumn name optional builder := by
  have reordered : ∀ map : NameMap (Nat × Nat), map.entries.Perm builder.candidates.entries →
      addColumnAmong map name optional builder = addColumn name optional builder :=
    fun map same => named.addColumnAmong_of_perm assembled reachable same name optional
  rcases named.addColumn_cases assembled reachable name optional with
    ⟨none, failed⟩ | ⟨offer, one, yields⟩ | ⟨several, failed⟩
  · refine ⟨?_, ?_, ?_, reordered⟩
    · intro unknown
      simp [failed, none, eq_comm]
    · simp [failed, none]
    · simp [none]
  · refine ⟨?_, ?_, ?_, reordered⟩
    · intro unknown
      rcases yields with ⟨_, _, ran, _⟩ | ⟨_, failed, _⟩
      · simp [ran, one]
      · simp [failed, one]
    · intro ambiguity
      rcases yields with ⟨_, _, ran, _⟩ | ⟨_, failed, _⟩
      · simp [ran, one]
      · simp [failed, one]
    · intro other isOther
      rw [one] at isOther
      cases isOther
      exact yields
  · refine ⟨?_, ?_, ?_, reordered⟩
    · intro unknown
      have some : (builder.meant name).length ≠ 0 := by omega
      simp [failed, some]
    · intro ambiguity
      simp [failed, several, eq_comm]
    · intro offer one
      simp [one] at several

/-- A column of a table that is bound twice: its bare name is ambiguous, and the
alias tells which of the two is meant. -/
theorem addColumn_resolves_boundTwice :
    ∃ catalog, oneTable.assemble = .ok catalog ∧
      FullyNamed (afterAll (boundTwice "a" "b") { catalog }) ∧
      (∃ next, addColumn { column := some "x" } false (afterAll (boundTwice "a" "b") { catalog }) =
        .error (.ambiguous ⟨{ column := some "x" }, 2⟩) next) ∧
      (∃ next, addColumn { column := some "y" } false (afterAll (boundTwice "a" "b") { catalog }) =
        .error (.unknownColumn { column := some "y" }) next) ∧
      ∃ offer, (afterAll (boundTwice "a" "b") { catalog }).Yields
        { table := some "b", column := some "x" } true offer := by
  have counted : ∀ catalog, oneTable.assemble = .ok catalog →
      FullyNamed (afterAll (boundTwice "a" "b") { catalog }) ∧
        ((afterAll (boundTwice "a" "b") { catalog }).meant { column := some "x" }).length = 2 ∧
        ((afterAll (boundTwice "a" "b") { catalog }).meant { column := some "y" }).length = 0 ∧
        ((afterAll (boundTwice "a" "b") { catalog }).meant
          { table := some "b", column := some "x" }).length = 1 := by
    rintro _ ⟨⟩
    decide +kernel
  obtain ⟨catalog, assembled⟩ : ∃ catalog, oneTable.assemble = .ok catalog := ⟨_, rfl⟩
  obtain ⟨named, two, zero, one⟩ := counted catalog assembled
  have reachable := (@Reachable.empty catalog none false).afterAll (boundTwice "a" "b")
  obtain ⟨offer, single⟩ := List.length_eq_one_iff.mp one
  refine ⟨catalog, assembled, named, ?_, ?_, offer, ?_⟩
  · exact ((addColumn_resolves assembled reachable named _ false).2.1 _).mpr
      ⟨by omega, by rw [two]⟩
  · exact ((addColumn_resolves assembled reachable named _ false).1 _).mpr ⟨zero, rfl⟩
  · exact (addColumn_resolves assembled reachable named _ true).2.2.1 offer single

end Builder

end TripleTables
