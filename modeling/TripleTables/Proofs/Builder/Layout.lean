import TripleTables.Proofs.Builder.Representation
import TripleTables.Proofs.Builder.Scope
import TripleTables.Proofs.Catalog.TripleText

/-!
# Where triples stand

A builder puts triples into its blocks when a table is bound and when a column
is registered.  `Placed` says what the blocks hold after any number of changes.
Each own triple of a bound table and one triple for each registered column is
there once, and nothing else:

* the group of a left-joined table holds the own triples of the table and those
  of its columns, the nullable ones each in a nested block;
* the required blocks hold the own triples of the other tables, and those of
  their columns that are not kept as optional;
* every other optional group is the single triple of a column of such a table
  that is kept as optional.
-/

namespace TripleTables

open TripleTables.Graph

/-! ## Filled templates -/

/-- A list of steps that succeeds gives one result for each value. -/
theorem forall₂_of_mapM {ε α β : Type} {step : α → Except ε β} {values : List α}
    {results : List β} (made : values.mapM step = .ok results) :
    List.Forall₂ (fun value result => step value = .ok result) values results := by
  induction values generalizing results with
  | nil =>
      cases made
      exact .nil
  | cons value rest ih =>
      simp only [List.mapM_cons, bind, Except.bind] at made
      cases first : step value with
      | error error => simp [first] at made
      | ok result =>
          cases others : rest.mapM step with
          | error error => simp [first, others] at made
          | ok more =>
              simp only [first, others] at made
              cases made
              exact .cons first (ih others)

/-- The triples are those of the templates, one for each. -/
def FilledFrom (subject : Variable) (object : Option Term) (templates : List Template)
    (triples : List Triple) : Prop :=
  List.Forall₂ (fun template triple => template.instantiate subject object = .ok (some triple))
    templates triples

/-- Only a comment gives no triple. -/
theorem Template.exists_of_instantiate {template : Template} {subject : Variable}
    {object : Option Term} {result : Option Triple} (solid : template.isComment = false)
    (filled : template.instantiate subject object = .ok result) :
    ∃ triple, result = some triple := by
  have made := Run.mapError_eq_ok_iff.mp filled
  cases body : template.body with
  | comment => simp [Template.isComment, body] at solid
  | triple first second third =>
      rw [body, fillBody] at made
      obtain ⟨s, _, made⟩ := Run.bind_eq_ok_iff_of_except.mp made
      obtain ⟨p, _, made⟩ := Run.bind_eq_ok_iff_of_except.mp made
      obtain ⟨o, _, made⟩ := Run.bind_eq_ok_iff_of_except.mp made
      obtain ⟨triple, _, same⟩ := Run.map_eq_ok_iff.mp made
      exact ⟨triple, same.symm⟩

/-- The slots of the template, from the subject to the object. -/
def Template.slots (template : Template) : List Slot :=
  match template.body with
  | .comment => []
  | .triple first second third => [first, second, third]

/-- The terms of a triple fill the slots of its template. -/
theorem Template.forall₂_of_instantiate {template : Template} {subject : Variable}
    {value : Option Term} {triple : Triple}
    (filled : template.instantiate subject value = .ok (some triple)) :
    List.Forall₂ (fun slot term => fillSlot subject value slot = .ok term) template.slots
      [triple.subject, triple.predicate, triple.object] := by
  unfold Template.slots
  cases shape : template.body with
  | comment => simp [instantiate, shape, fillBody, Except.mapError] at filled
  | triple first second third =>
      obtain ⟨isFirst, isSecond, isThird, _⟩ := slots_of_instantiate shape filled
      exact .cons isFirst (.cons isSecond (.cons isThird .nil))

theorem Graph.Term.asVariable?_eq_some_iff {term : Term} {v : Variable} :
    term.asVariable? = some v ↔ term = .variable v := by
  cases term <;> simp [Term.asVariable?]

/-- A variable occurs in a triple exactly when it fills a slot of the
template. -/
theorem Template.mem_vars_iff {template : Template} {subject v : Variable} {value : Option Term}
    {triple : Triple} (filled : template.instantiate subject value = .ok (some triple)) :
    v ∈ triple.vars ↔
      ∃ slot ∈ template.slots, fillSlot subject value slot = .ok (.variable v) := by
  simp only [Triple.vars, List.mem_filterMap, Term.asVariable?_eq_some_iff]
  have filledSlots := Template.forall₂_of_instantiate filled
  generalize template.slots = slots at filledSlots
  generalize [triple.subject, triple.predicate, triple.object] = terms at filledSlots
  induction filledSlots with
  | nil => simp
  | cons first _ ih => simp only [List.exists_mem_cons_iff, ih, first, Except.ok.injEq]

theorem Column.usesObject_of_readTemplate {column : Column} {template : Template}
    (read : column.readTemplate = .ok template) : template.usesObject = true := by
  unfold Column.readTemplate at read
  split at read
  · contradiction
  · split at read
    · contradiction
    · split at read
      · rename_i uses
        cases read
        exact uses
      · contradiction

theorem Table.isComment_of_readTemplates {table : Table} {templates : List Template}
    (read : table.readTemplates = .ok templates) :
    ∀ template ∈ templates, template.isComment = false := by
  intro template member
  simp only [Table.readTemplates, bind, Except.bind] at read
  split at read
  · contradiction
  · cases read
    simpa using (List.mem_filter.mp member).2

/-- A table gives one triple for each of its templates that is no comment. -/
theorem Table.filledFrom_of_triples {table : Table} {subject : Variable} {triples : List Triple}
    (filled : table.triples subject = .ok triples) :
    ∃ templates, table.readTemplates = .ok templates ∧
      FilledFrom subject table.object? templates triples := by
  simp only [Table.triples, bind, Except.bind] at filled
  cases read : table.readTemplates with
  | error error => simp [read] at filled
  | ok templates =>
      refine ⟨templates, rfl, ?_⟩
      cases made : templates.mapM (·.instantiate subject table.object?) with
      | error error => simp [read, made] at filled
      | ok results =>
          simp only [read, made] at filled
          cases filled
          have solid := Table.isComment_of_readTemplates read
          have each := forall₂_of_mapM made
          clear read made
          induction each with
          | nil => exact .nil
          | cons first rest ih =>
              obtain ⟨triple, rfl⟩ := Template.exists_of_instantiate (solid _ (by simp)) first
              exact .cons first (ih fun template member => solid template (by simp [member]))

/-- The triples of the table's own templates for a row of the binding. -/
def Binding.ownTriples (binding : Binding) : List Triple :=
  (binding.table.triples binding.subject).toOption.getD []

theorem Binding.ownTriples_eq {binding : Binding} {triples : List Triple}
    (filled : binding.table.triples binding.subject = .ok triples) :
    binding.ownTriples = triples := by
  simp [Binding.ownTriples, filled, Except.toOption]

/-- A column gives the triple of its template, filled with its variable. -/
theorem Builder.instantiate_of_columnTriple {binding : Binding} {column : Column} {v : Variable}
    {triple : Triple} (filled : columnTriple binding column v = .ok triple) :
    ∃ template, column.readTemplate = .ok template ∧
      template.instantiate binding.subject (some (.variable v)) = .ok (some triple) := by
  simp only [columnTriple, bind, Except.bind] at filled
  cases read : column.readTemplate with
  | error error => simp [read] at filled
  | ok template =>
      refine ⟨template, rfl, ?_⟩
      simp only [read] at filled
      cases made : template.instantiate binding.subject (some (.variable v)) with
      | error error => simp [made] at filled
      | ok result =>
          cases result with
          | none => simp [made] at filled
          | some given =>
              simp only [made] at filled
              cases filled
              rfl

namespace Builder

/-! ## Registered columns -/

/-- A registered column with what is known of it. -/
structure Registration where
  place : Nat × Nat
  binding : Binding
  column : Column
  triple : Triple
  /-- The column is kept as one whose triple stands in an optional group. -/
  inGroup : Bool

/-- What an entry of the index stands for. -/
def registrationOf? (builder : Builder) (entry : (Nat × Nat) × Nat) : Option Registration := do
  let binding ← builder.bindings[entry.1.1]?
  let column ← binding.table.columns[entry.1.2]?
  let triple ← (columnTriple binding column (binding.columnVariable column)).toOption
  let mentioned ← builder.columns[entry.2]?
  return ⟨entry.1, binding, column, triple, mentioned.optional⟩

/-- The registered columns, in the order of registration. -/
def registrations (builder : Builder) : List Registration :=
  builder.columnIndex.filterMap builder.registrationOf?

theorem registrationOf?_eq_some {builder : Builder} {place : Nat × Nat} {position : Nat}
    {binding : Binding} {column : Column} {triple : Triple} {mentioned : MentionedColumn}
    (bound : builder.bindings[place.1]? = some binding)
    (declared : binding.table.columns[place.2]? = some column)
    (filled : columnTriple binding column (binding.columnVariable column) = .ok triple)
    (found : builder.columns[position]? = some mentioned) :
    builder.registrationOf? (place, position) =
      some ⟨place, binding, column, triple, mentioned.optional⟩ := by
  simp [registrationOf?, bound, declared, filled, found, Except.toOption]

/-- No entry of the index is lost among the registered columns. -/
theorem Consistent.exists_registrationOf? {builder : Builder} (consistent : Consistent builder)
    {entry : (Nat × Nat) × Nat} (indexed : entry ∈ builder.columnIndex) :
    ∃ registration, builder.registrationOf? entry = some registration ∧
      registration.place = entry.1 ∧
      builder.bindings[registration.place.1]? = some registration.binding ∧
      registration.binding.table.columns[registration.place.2]? = some registration.column ∧
      columnTriple registration.binding registration.column
        (registration.binding.columnVariable registration.column) = .ok registration.triple ∧
      builder.columns[entry.2]? =
        some (mention registration.binding registration.column registration.inGroup) := by
  obtain ⟨place, position⟩ := entry
  obtain ⟨binding, column, triple, inGroup, bound, declared, filled, found⟩ :=
    consistent.mentioned indexed
  exact ⟨⟨place, binding, column, triple, inGroup⟩,
    registrationOf?_eq_some bound declared filled found, rfl, bound, declared, filled, found⟩

theorem Consistent.exists_entry {builder : Builder} (consistent : Consistent builder)
    {registration : Registration} (registered : registration ∈ builder.registrations) :
    ∃ position, (registration.place, position) ∈ builder.columnIndex ∧
      builder.bindings[registration.place.1]? = some registration.binding ∧
      registration.binding.table.columns[registration.place.2]? = some registration.column ∧
      columnTriple registration.binding registration.column
        (registration.binding.columnVariable registration.column) = .ok registration.triple ∧
      builder.columns[position]? =
        some (mention registration.binding registration.column registration.inGroup) := by
  obtain ⟨⟨place, position⟩, indexed, stands⟩ := List.mem_filterMap.mp registered
  obtain ⟨known, isKnown, samePlace, bound, declared, filled, found⟩ :=
    consistent.exists_registrationOf? indexed
  rw [stands] at isKnown
  cases isKnown
  subst samePlace
  exact ⟨position, indexed, bound, declared, filled, found⟩

/-- The registered columns stand at the places of the index. -/
theorem Consistent.map_place_registrations {builder : Builder} (consistent : Consistent builder) :
    builder.registrations.map Registration.place = builder.columnIndex.map Prod.fst := by
  have each : ∀ entry ∈ builder.columnIndex,
      (builder.registrationOf? entry).map Registration.place = some entry.1 := by
    intro entry indexed
    obtain ⟨registration, stands, samePlace, _⟩ := consistent.exists_registrationOf? indexed
    rw [stands, ← samePlace]
    rfl
  rw [registrations, List.map_filterMap, ← List.filterMap_eq_map]
  exact List.filterMap_congr each

/-- What is kept of a registered column. -/
def Registration.mentioned (registration : Registration) : MentionedColumn :=
  mention registration.binding registration.column registration.inGroup

theorem filterMap_getElem?_range {α : Type} (values : List α) :
    (List.range values.length).filterMap (fun position => values[position]?) = values := by
  induction values with
  | nil => rfl
  | cons value rest ih => simp [List.range_succ_eq_map, List.filterMap_map, ih]

/-- The columns that are kept are the registered ones, in the same order. -/
theorem Consistent.columns_eq {builder : Builder} (consistent : Consistent builder) :
    builder.columns = builder.registrations.map Registration.mentioned := by
  have each : ∀ entry ∈ builder.columnIndex,
      (builder.registrationOf? entry).map Registration.mentioned = builder.columns[entry.2]? := by
    intro entry indexed
    obtain ⟨registration, stands, _, _, _, _, kept⟩ := consistent.exists_registrationOf? indexed
    rw [stands, kept]
    rfl
  have listed : builder.columnIndex.filterMap (fun entry => builder.columns[entry.2]?) =
      (List.range builder.columns.length).filterMap
        (fun position => builder.columns[position]?) := by
    rw [← consistent.positions, List.filterMap_map]
    rfl
  rw [registrations, List.map_filterMap, List.filterMap_congr each, listed]
  exact (filterMap_getElem?_range builder.columns).symm

theorem getElem?_of_isPrefix {α : Type} {values more : List α} (extended : values <+: more)
    {i : Nat} {value : α} (found : values[i]? = some value) : more[i]? = some value := by
  obtain ⟨rest, rfl⟩ := extended
  rw [List.getElem?_append_left (List.getElem?_eq_some_iff.mp found).1, found]

/-- What has been registered stays as it is, and new entries come behind it. -/
theorem Consistent.registrations_eq {builder next : Builder} (consistent : Consistent builder)
    (continues : Continues builder next) (more : List ((Nat × Nat) × Nat))
    (index : next.columnIndex = builder.columnIndex ++ more) :
    next.registrations = builder.registrations ++ more.filterMap next.registrationOf? := by
  have same : ∀ entry ∈ builder.columnIndex,
      next.registrationOf? entry = builder.registrationOf? entry := by
    intro entry indexed
    obtain ⟨⟨place, binding, column, triple, inGroup⟩, stands, rfl, bound, declared, filled,
      found⟩ := consistent.exists_registrationOf? indexed
    rw [stands]
    exact registrationOf?_eq_some (getElem?_of_isPrefix continues.bindings bound) declared filled
      (getElem?_of_isPrefix continues.columns found)
  rw [registrations, index, List.filterMap_append, List.filterMap_congr same, registrations]

theorem Consistent.registrations_withTable {builder : Builder} (consistent : Consistent builder)
    (table : Table) (tableAlias : String) (optional : Bool) (triples : List Triple) :
    (builder.withTable table tableAlias optional triples).registrations =
      builder.registrations := by
  have continues : Continues builder (builder.withTable table tableAlias optional triples) :=
    ⟨List.prefix_append _ _, List.prefix_refl _, List.prefix_refl _, .blocksWithTable _ _ _⟩
  have grown := consistent.registrations_eq continues [] (List.append_nil _).symm
  simpa using grown

theorem Consistent.registrations_withColumn {builder : Builder} (consistent : Consistent builder)
    {place : Nat × Nat} {binding : Binding} {column : Column} {triple : Triple}
    (bound : builder.bindings[place.1]? = some binding)
    (declared : binding.table.columns[place.2]? = some column)
    (filled : columnTriple binding column (binding.columnVariable column) = .ok triple)
    {blocks : List Block} (grow : GrowInto builder.blocks blocks) (inGroup : Bool) :
    (builder.withColumn place (mention binding column inGroup) blocks).registrations =
      builder.registrations ++ [⟨place, binding, column, triple, inGroup⟩] := by
  have continues :
      Continues builder (builder.withColumn place (mention binding column inGroup) blocks) :=
    ⟨List.prefix_refl _, List.prefix_append _ _, List.prefix_append _ _, grow⟩
  have inNext :
      (builder.withColumn place (mention binding column inGroup) blocks).bindings[place.1]? =
      some binding := bound
  have kept : (builder.withColumn place (mention binding column inGroup) blocks).columns[
      builder.columns.length]? = some (mention binding column inGroup) :=
    List.getElem?_concat_length
  have stands : (builder.withColumn place (mention binding column inGroup) blocks).registrationOf?
      (place, builder.columns.length) = some ⟨place, binding, column, triple, inGroup⟩ :=
    registrationOf?_eq_some inNext declared filled kept
  rw [consistent.registrations_eq continues [(place, builder.columns.length)] rfl]
  simp [stands]

/-! ## Kinds of blocks -/

end Builder

/-- The triples of a required block. -/
def Block.requiredTriples : Block → List Triple
  | .required triples => triples
  | .optional _ => []

namespace Builder

/-- A binding is left-joined at the position. -/
def isJoinedAt (builder : Builder) (position : Nat) : Bool :=
  builder.bindings.any (fun binding => binding.group == some position)

/-- The group of a block at a position that is not joined. -/
def looseGroup? (joined : Nat → Bool) : Block × Nat → Option OptionalGroup
  | (.optional group, position) => if joined position then none else some group
  | (.required _, _) => none

/-- The optional groups that stand at positions that are not joined, in order. -/
def looseGroups (joined : Nat → Bool) (blocks : List Block) : List OptionalGroup :=
  blocks.zipIdx.filterMap (looseGroup? joined)

theorem looseGroup?_of_joined {joined : Nat → Bool} {position : Nat}
    (isJoined : joined position = true) (block : Block) :
    looseGroup? joined (block, position) = none := by
  cases block with
  | required triples => rfl
  | optional group => simp [looseGroup?, isJoined]

theorem looseGroups_concat (joined : Nat → Bool) (blocks : List Block) (last : Block) :
    looseGroups joined (blocks ++ [last]) =
      looseGroups joined blocks ++ (looseGroup? joined (last, blocks.length)).toList := by
  rw [looseGroups, List.zipIdx_append, List.filterMap_append]
  cases found : looseGroup? joined (last, blocks.length) with
  | none => simp [looseGroups, found]
  | some group => simp [looseGroups, found]

/-- A block at a joined position does not count. -/
theorem looseGroups_set {joined : Nat → Bool} {position : Nat}
    (isJoined : joined position = true) (blocks : List Block) (block : Block) :
    looseGroups joined (blocks.set position block) = looseGroups joined blocks := by
  have shifted : ∀ start i, joined (start + i) = true →
      ((blocks.set i block).zipIdx start).filterMap (looseGroup? joined) =
        (blocks.zipIdx start).filterMap (looseGroup? joined) := by
    induction blocks with
    | nil => simp
    | cons first rest ih =>
        intro start i there
        cases i with
        | zero =>
            rw [Nat.add_zero] at there
            simp only [List.set_cons_zero, List.zipIdx_cons, List.filterMap_cons,
              looseGroup?_of_joined there]
        | succ i =>
            have behind := ih (start + 1) i (by rwa [Nat.add_right_comm, Nat.add_assoc])
            simp only [List.set_cons_succ, List.zipIdx_cons, List.filterMap_cons, behind]
  exact shifted 0 position (by rwa [Nat.zero_add])

theorem looseGroups_pushRequired (joined : Nat → Bool) (blocks : List Block) (triple : Triple) :
    looseGroups joined (pushRequired blocks triple) = looseGroups joined blocks := by
  rcases pushRequired_eq blocks triple with pushed | ⟨front, triples, split, pushed⟩
  · rw [pushed, looseGroups_concat]
    simp [looseGroup?]
  · rw [pushed, split, looseGroups_concat, looseGroups_concat]
    rfl

/-- What counts depends only on the positions that there are. -/
theorem looseGroups_congr {joined joined' : Nat → Bool} {blocks : List Block}
    (same : ∀ position < blocks.length, joined position = joined' position) :
    looseGroups joined blocks = looseGroups joined' blocks := by
  refine List.filterMap_congr ?_
  rintro ⟨block, position⟩ member
  have inside : position < blocks.length := List.snd_lt_of_mem_zipIdx member
  cases block with
  | required triples => rfl
  | optional group => simp [looseGroup?, same position inside]

/-- What one block gains is gained by all together. -/
theorem perm_flatMap_set (part : Block → List Triple) {blocks : List Block} {position : Nat}
    {old new : Block} {added : List Triple} (found : blocks[position]? = some old)
    (grown : (part new).Perm (part old ++ added)) :
    ((blocks.set position new).flatMap part).Perm (blocks.flatMap part ++ added) := by
  induction blocks generalizing position with
  | nil => simp at found
  | cons first rest ih =>
      cases position with
      | zero =>
          have same : first = old := by simpa using found
          subst same
          rw [List.set_cons_zero, List.flatMap_cons, List.flatMap_cons]
          exact (grown.append_right _).trans (perm_append_right_comm _ _ _)
      | succ position =>
          rw [List.set_cons_succ, List.flatMap_cons, List.flatMap_cons, List.append_assoc]
          exact (ih (by simpa using found)).append_left _

/-! ## The invariant -/

/-- The registered columns of a binding that are nullable, or those that are
not. -/
def columnsOf (builder : Builder) (id : Nat) (nullable : Bool) : List Registration :=
  builder.registrations.filter
    (fun registration => registration.place.1 == id && registration.column.nullable == nullable)

/-- The registered columns of tables that are not left-joined and that are kept
as optional, or those that are not. -/
def plainColumns (builder : Builder) (inGroup : Bool) : List Registration :=
  builder.registrations.filter
    (fun registration => !registration.binding.isOptional && registration.inGroup == inGroup)

/-- What the blocks hold. -/
structure Placed (builder : Builder) : Prop where
  /-- The templates of a bound table could be filled. -/
  own : ∀ binding ∈ builder.bindings,
    binding.table.triples binding.subject = .ok binding.ownTriples
  /-- Each own triple of a table and one triple for each column, and no more. -/
  once : (builder.blocks.flatMap Block.allTriples).Perm
    (builder.bindings.flatMap Binding.ownTriples ++
      builder.registrations.map Registration.triple)
  /-- The group of a left-joined table holds all of its triples. -/
  joined : ∀ {id : Nat} {binding : Binding} {position : Nat},
    builder.bindings[id]? = some binding → binding.group = some position →
      ∃ filters, builder.blocks[position]? = some (.optional
        { triples := binding.ownTriples ++ (builder.columnsOf id false).map Registration.triple
          nested := (builder.columnsOf id true).map (fun registration => [registration.triple])
          filters })
  /-- The required blocks hold the own triples of the other tables, and their
  columns that are not kept as optional. -/
  required : (builder.blocks.flatMap Block.requiredTriples).Perm
    ((builder.bindings.filter (fun binding => !binding.isOptional)).flatMap Binding.ownTriples ++
      (builder.plainColumns false).map Registration.triple)
  /-- The other columns of these tables have a group each. -/
  loose : looseGroups builder.isJoinedAt builder.blocks =
    (builder.plainColumns true).map (fun registration => .single registration.triple)

theorem placed_empty (catalog : Catalog) (defaultSchema : Option String) (useService : Bool) :
    Placed { catalog, defaultSchema, useService } where
  own := by simp
  once := .refl _
  joined := by simp
  required := .refl _
  loose := rfl

/-! ## Binding a table -/

theorem looseGroups_foldl_pushRequired (joined : Nat → Bool) (triples : List Triple)
    (blocks : List Block) :
    looseGroups joined (triples.foldl pushRequired blocks) = looseGroups joined blocks := by
  induction triples generalizing blocks with
  | nil => rfl
  | cons triple rest ih => rw [List.foldl_cons, ih, looseGroups_pushRequired]

theorem getElem?_blocksWithTable {builder : Builder} {position : Nat}
    (isGroup : IsGroup builder.blocks position) (optional : Bool) (triples : List Triple) :
    (builder.blocksWithTable optional triples)[position]? = builder.blocks[position]? :=
  getElem?_eq_of_take (take_blocksWithTable isGroup optional triples)

theorem requiredTriples_blocksWithTable (builder : Builder) (optional : Bool)
    (triples : List Triple) :
    (builder.blocksWithTable optional triples).flatMap Block.requiredTriples =
      builder.blocks.flatMap Block.requiredTriples ++ if optional then [] else triples := by
  cases optional with
  | true => simp [blocksWithTable, Block.requiredTriples]
  | false => exact flatMap_foldl_pushRequired (fun _ => rfl) triples builder.blocks

/-- A column of a binding is registered only when the binding is there. -/
theorem Consistent.columnsOf_eq_nil {builder : Builder} (consistent : Consistent builder)
    (nullable : Bool) : builder.columnsOf builder.bindings.length nullable = [] := by
  refine List.filter_eq_nil_iff.mpr ?_
  intro registration registered
  obtain ⟨_, _, bound, _⟩ := consistent.exists_entry registered
  have inside := (List.getElem?_eq_some_iff.mp bound).1
  have apart : registration.place.1 ≠ builder.bindings.length := by omega
  simp [apart]

theorem looseGroups_withTable (builder : Builder) (table : Table) (tableAlias : String)
    (optional : Bool) (triples : List Triple) :
    looseGroups (builder.withTable table tableAlias optional triples).isJoinedAt
        (builder.blocksWithTable optional triples) =
      looseGroups builder.isJoinedAt builder.blocks := by
  cases optional with
  | true =>
      -- The new block is the group of the new binding, so it does not count.
      have last : (builder.withTable table tableAlias true triples).isJoinedAt
          builder.blocks.length = true := by
        simp [isJoinedAt, withTable, nextBinding]
      have others : ∀ position < builder.blocks.length,
          (builder.withTable table tableAlias true triples).isJoinedAt position =
            builder.isJoinedAt position := by
        intro position inside
        have apart : builder.blocks.length ≠ position := by omega
        simp [isJoinedAt, withTable, nextBinding, apart]
      simp only [blocksWithTable, if_true]
      rw [looseGroups_concat, looseGroup?_of_joined last, looseGroups_congr others]
      simp
  | false =>
      have others : (builder.withTable table tableAlias false triples).isJoinedAt =
          builder.isJoinedAt := by
        funext position
        simp [isJoinedAt, withTable, nextBinding]
      rw [others]
      exact looseGroups_foldl_pushRequired _ triples builder.blocks

theorem Placed.table {builder next : Builder} (placed : Placed builder)
    (consistent : Consistent builder) (binds : Binds builder next) : Placed next := by
  rcases binds with @⟨tableName, table, tableAlias, optional, triples, _, _, filled⟩
  have known := consistent.registrations_withTable table tableAlias optional triples
  have ownNew : (builder.nextBinding table tableAlias optional).ownTriples = triples :=
    Binding.ownTriples_eq filled
  have columnsSame : ∀ id nullable,
      (builder.withTable table tableAlias optional triples).columnsOf id nullable =
        builder.columnsOf id nullable := by
    intro id nullable
    rw [columnsOf, known, columnsOf]
  have plainSame : ∀ inGroup,
      (builder.withTable table tableAlias optional triples).plainColumns inGroup =
        builder.plainColumns inGroup := by
    intro inGroup
    rw [plainColumns, known, plainColumns]
  constructor
  · intro binding member
    rcases List.mem_append.mp member with old | new
    · exact placed.own binding old
    · rw [List.mem_singleton.mp new, ownNew]
      exact filled
  · rw [known]
    simp only [withTable]
    rw [flatMap_allTriples_blocksWithTable, List.flatMap_append, List.flatMap_singleton, ownNew]
    exact (placed.once.append_right triples).trans (perm_append_right_comm _ _ _)
  · intro id binding position bound grouped
    simp only [columnsSame]
    rcases getElem?_concat bound with old | ⟨rfl, rfl⟩
    · obtain ⟨filters, found⟩ := placed.joined old grouped
      refine ⟨filters, ?_⟩
      simp only [withTable]
      rw [getElem?_blocksWithTable ⟨_, found⟩, found]
    · rw [consistent.columnsOf_eq_nil, consistent.columnsOf_eq_nil, ownNew]
      cases optional with
      | false => simp [nextBinding] at grouped
      | true =>
          have isLast : builder.blocks.length = position := by
            simpa [nextBinding] using grouped
          subst position
          exact ⟨[], by simp [withTable, blocksWithTable]⟩
  · rw [plainSame]
    simp only [withTable]
    rw [requiredTriples_blocksWithTable, List.filter_append, List.flatMap_append]
    have last : ([builder.nextBinding table tableAlias optional].filter
        (fun binding => !binding.isOptional)).flatMap Binding.ownTriples =
          if optional then [] else triples := by
      cases optional with
      | true => simp [nextBinding, Binding.isOptional]
      | false => simpa [nextBinding, Binding.isOptional] using ownNew
    rw [last]
    exact (placed.required.append_right _).trans (perm_append_right_comm _ _ _)
  · rw [plainSame]
    exact (looseGroups_withTable builder table tableAlias optional triples).trans placed.loose

/-! ## Registering a column -/

theorem isJoinedAt_iff {builder : Builder} {position : Nat} :
    builder.isJoinedAt position = true ↔
      ∃ binding ∈ builder.bindings, binding.group = some position := by
  simp [isJoinedAt]

/-- No binding is joined behind the last block. -/
theorem Consistent.isJoinedAt_length {builder : Builder} (consistent : Consistent builder) :
    builder.isJoinedAt builder.blocks.length = false := by
  rw [Bool.eq_false_iff, ne_eq, isJoinedAt_iff]
  rintro ⟨binding, member, grouped⟩
  obtain ⟨id, bound⟩ := List.mem_iff_getElem?.mp member
  exact Nat.lt_irrefl _ (consistent.groups bound grouped).lt

section Column

variable {builder : Builder} {place : Nat × Nat} {binding : Binding} {nullable optional : Bool}
  {triple : Triple} {blocks : List Block} {inGroup : Bool}

/-- When the triple of a column stands in an optional group. -/
theorem inGroup_of_placeColumn
    (placing : builder.placeColumn binding nullable optional triple = .ok (blocks, inGroup)) :
    inGroup = (binding.isOptional || nullable || optional) := by
  rcases placeColumn_cases placing with
    ⟨position, _, grouped, _, _, rfl⟩ | ⟨ungrouped, wanted, _, rfl⟩ | ⟨ungrouped, wanted, _, rfl⟩
  · simp [Binding.isOptional, grouped]
  · simp [Binding.isOptional, ungrouped, wanted]
  · simp [Binding.isOptional, ungrouped, wanted]

/-- The triple of a column is added once. -/
theorem perm_allTriples_placeColumn
    (placing : builder.placeColumn binding nullable optional triple = .ok (blocks, inGroup)) :
    (blocks.flatMap Block.allTriples).Perm
      (builder.blocks.flatMap Block.allTriples ++ [triple]) := by
  rcases placeColumn_spec placing with ⟨position, group, _, found, rfl⟩ | ⟨_, rfl | rfl⟩
  · exact perm_flatMap_set _ found (perm_allTriples_placeInGroup nullable triple group)
  · simp [Block.allTriples, OptionalGroup.allTriples, OptionalGroup.single]
  · rw [flatMap_pushRequired fun _ => rfl]

theorem perm_requiredTriples_placeColumn
    (placing : builder.placeColumn binding nullable optional triple = .ok (blocks, inGroup)) :
    (blocks.flatMap Block.requiredTriples).Perm
      (builder.blocks.flatMap Block.requiredTriples ++ if inGroup then [] else [triple]) := by
  rcases placeColumn_cases placing with
    ⟨position, group, _, found, rfl, rfl⟩ | ⟨_, _, rfl, rfl⟩ | ⟨_, _, rfl, rfl⟩
  · exact perm_flatMap_set _ found (.refl _)
  · simp [Block.requiredTriples]
  · rw [flatMap_pushRequired fun _ => rfl]
    rfl

/-- A column gets a group of its own if its binding has none and it is kept as
optional. -/
theorem looseGroups_placeColumn (consistent : Consistent builder)
    (bound : builder.bindings[place.1]? = some binding)
    (placing : builder.placeColumn binding nullable optional triple = .ok (blocks, inGroup)) :
    looseGroups builder.isJoinedAt blocks =
      looseGroups builder.isJoinedAt builder.blocks ++
        if !binding.isOptional && inGroup then [.single triple] else [] := by
  rcases placeColumn_cases placing with
    ⟨position, group, grouped, _, rfl, rfl⟩ | ⟨ungrouped, _, rfl, rfl⟩ | ⟨_, _, rfl, rfl⟩
  · have joined : builder.isJoinedAt position = true :=
      isJoinedAt_iff.mpr ⟨binding, List.mem_of_getElem? bound, grouped⟩
    rw [looseGroups_set joined]
    simp [Binding.isOptional, grouped]
  · rw [looseGroups_concat]
    simp [looseGroup?, consistent.isJoinedAt_length, Binding.isOptional, ungrouped]
  · rw [looseGroups_pushRequired]
    simp

/-- A group that belongs to a left join gains the columns of its binding. -/
theorem getElem?_placeColumn (consistent : Consistent builder)
    (bound : builder.bindings[place.1]? = some binding)
    (placing : builder.placeColumn binding nullable optional triple = .ok (blocks, inGroup))
    {id : Nat} {joined : Binding} {position : Nat} {group : OptionalGroup}
    (isJoined : builder.bindings[id]? = some joined) (grouped : joined.group = some position)
    (found : builder.blocks[position]? = some (.optional group)) :
    blocks[position]? = some (.optional
      (if place.1 = id then placeInGroup nullable triple group else group)) := by
  have apart : binding.group = none → place.1 ≠ id := by
    rintro ungrouped rfl
    rw [bound] at isJoined
    cases isJoined
    rw [ungrouped] at grouped
    contradiction
  rcases placeColumn_cases placing with
    ⟨changed, old, inside, isOld, rfl, _⟩ | ⟨ungrouped, _, rfl, _⟩ | ⟨ungrouped, _, rfl, _⟩
  · by_cases same : place.1 = id
    · subst same
      rw [bound] at isJoined
      cases isJoined
      rw [inside] at grouped
      cases grouped
      rw [found] at isOld
      cases isOld
      rw [List.getElem?_set_self (List.getElem?_eq_some_iff.mp found).1, if_pos rfl]
    · have elsewhere : changed ≠ position := by
        rintro rfl
        exact same (consistent.eq_of_group bound isJoined inside grouped)
      rw [List.getElem?_set_ne elsewhere, found, if_neg same]
  · rw [if_neg (apart ungrouped)]
    exact getElem?_of_concat found _
  · rw [if_neg (apart ungrouped)]
    exact (getElem?_eq_of_take (take_pushRequired ⟨group, found⟩ triple)).trans found

end Column

theorem columnsOf_concat {builder next : Builder} {registration : Registration}
    (grown : next.registrations = builder.registrations ++ [registration]) (id : Nat)
    (nullable : Bool) :
    next.columnsOf id nullable = builder.columnsOf id nullable ++
      if registration.place.1 = id ∧ registration.column.nullable = nullable then [registration]
      else [] := by
  rw [columnsOf, grown, List.filter_append, columnsOf]
  simp [List.filter_singleton]

theorem plainColumns_concat {builder next : Builder} {registration : Registration}
    (grown : next.registrations = builder.registrations ++ [registration]) (inGroup : Bool) :
    next.plainColumns inGroup = builder.plainColumns inGroup ++
      if registration.binding.isOptional = false ∧ registration.inGroup = inGroup then
        [registration]
      else [] := by
  rw [plainColumns, grown, List.filter_append, plainColumns]
  simp [List.filter_singleton]

theorem Placed.column {builder next : Builder} (placed : Placed builder)
    (consistent : Consistent builder) (registers : Registers builder next) : Placed next := by
  rcases registers with @⟨place, optional, binding, column, triple, blocks, inGroup, _, bound,
    declared, filled, placing⟩
  have known := consistent.registrations_withColumn bound declared filled (.placeColumn placing)
    inGroup
  constructor
  · exact placed.own
  · rw [known, List.map_append]
    have added := (perm_allTriples_placeColumn placing).trans (placed.once.append_right [triple])
    rwa [List.append_assoc] at added
  · intro id joined position isJoined grouped
    obtain ⟨filters, found⟩ := placed.joined isJoined grouped
    refine ⟨filters, ?_⟩
    have gained := getElem?_placeColumn consistent bound placing isJoined grouped found
    rw [columnsOf_concat known, columnsOf_concat known]
    refine gained.trans ?_
    by_cases same : place.1 = id
    · cases nullable : column.nullable with
      | true => simp [same, placeInGroup]
      | false => simp [same, placeInGroup]
    · simp [same]
  · have added : (if inGroup then [] else [triple]) =
        (if binding.isOptional = false ∧ inGroup = false then
          [(⟨place, binding, column, triple, inGroup⟩ : Registration)] else []).map
            Registration.triple := by
      have flag := inGroup_of_placeColumn placing
      cases inGroup with
      | true => simp
      | false =>
          have plain : binding.isOptional = false := by
            cases left : binding.isOptional with
            | false => rfl
            | true => simp [left] at flag
          simp [plain]
    rw [plainColumns_concat known, List.map_append, ← added, ← List.append_assoc]
    exact (perm_requiredTriples_placeColumn placing).trans (placed.required.append_right _)
  · have gained := looseGroups_placeColumn consistent bound placing
    rw [placed.loose] at gained
    rw [plainColumns_concat known, List.map_append]
    refine gained.trans (congrArg _ ?_)
    cases binding.isOptional <;> cases inGroup <;> rfl

/-! ## Every run -/

theorem Placed.condition {builder : Builder} (placed : Placed builder) {id : Nat}
    {binding : Binding} {position : Nat} {group : OptionalGroup} (condition : Expr)
    (bound : builder.bindings[id]? = some binding)
    (grouped : binding.group = some position)
    (found : builder.blocks[position]? = some (.optional group)) :
    Placed (builder.withGroupFilter position group condition) := by
  have same : ∀ part : Block → List Triple,
      part (.optional (group.withFilter condition)) = part (.optional group) →
      ((builder.blocks.set position (.optional (group.withFilter condition))).flatMap part).Perm
        (builder.blocks.flatMap part) := by
    intro part unchanged
    rw [← List.append_nil (builder.blocks.flatMap part)]
    exact perm_flatMap_set part found (by simp [unchanged])
  have joinedHere : builder.isJoinedAt position = true :=
    isJoinedAt_iff.mpr ⟨binding, List.mem_of_getElem? bound, grouped⟩
  constructor
  · exact placed.own
  · exact (same Block.allTriples rfl).trans placed.once
  · intro other joined there isJoined isThere
    obtain ⟨filters, isGroup⟩ := placed.joined isJoined isThere
    by_cases here : position = there
    · subst here
      rw [found] at isGroup
      cases isGroup
      exact ⟨filters ++ [condition],
        List.getElem?_set_self (List.getElem?_eq_some_iff.mp found).1⟩
    · refine ⟨filters, ?_⟩
      simp only [withGroupFilter]
      rw [List.getElem?_set_ne here]
      exact isGroup
  · exact (same Block.requiredTriples rfl).trans placed.required
  · exact (looseGroups_set joinedHere builder.blocks _).trans placed.loose

theorem Placed.change {builder next : Builder} (placed : Placed builder)
    (consistent : Consistent builder) (change : Change builder next) : Placed next := by
  cases change with
  | table binds => exact placed.table consistent binds
  | fill fills =>
      cases fills with
      | column registers => exact placed.column consistent registers
      | projection projection free =>
          exact ⟨placed.own, placed.once, placed.joined, placed.required, placed.loose⟩
      | condition condition bound grouped found =>
          exact placed.condition condition bound grouped (isGroup_of_groupAt found)
      | outside =>
          exact ⟨placed.own, placed.once, placed.joined, placed.required, placed.loose⟩

theorem placed_of_change {builder next : Builder} (change : Change builder next)
    (both : Consistent builder ∧ Placed builder) : Consistent next ∧ Placed next :=
  ⟨both.1.change change, both.2.change both.1 change⟩

/-- In every reachable builder the triples stand where they should. -/
theorem Reachable.placed {catalog : Catalog} {builder : Builder}
    (reachable : Reachable catalog builder) : Placed builder := by
  have both : Consistent builder ∧ Placed builder :=
    @Reachable.keeps catalog (fun builder => Consistent builder ∧ Placed builder)
      (fun _ _ => ⟨consistent_empty _ _ _, placed_empty _ _ _⟩) (fun _ _ => placed_of_change)
      builder reachable
  exact both.2

/-- So they do after tables have been bound and then the rest has been filled
in. -/
theorem placed_of_phases {catalog : Catalog} {defaultSchema : Option String} {useService : Bool}
    {middle last : Builder}
    (binding : Relation.ReflTransGen Binds { catalog, defaultSchema, useService } middle)
    (filling : Relation.ReflTransGen Fills middle last) : Consistent last ∧ Placed last := by
  have opened : Consistent middle ∧ Placed middle := by
    clear filling
    induction binding with
    | refl => exact ⟨consistent_empty _ _ _, placed_empty _ _ _⟩
    | tail _ binds ih => exact placed_of_change (.table binds) ih
  induction filling with
  | refl => exact opened
  | tail _ fills ih => exact placed_of_change (.fill fills) ih

end Builder

end TripleTables
