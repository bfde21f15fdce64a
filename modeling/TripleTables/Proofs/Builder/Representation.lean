import TripleTables.Proofs.Builder.Capture

/-!
# The representation of builders

The bindings, the kept columns and the blocks of a builder stand in lists and
are referred to by position: a binding by its id, a kept column by the index of
places, an optional group by the binding whose left join it belongs to.
`Coherent` says what these references mean to a reader of the builder.

`Continues` compares a builder with a later one.  Nothing is moved or taken
away, and a block is only ever lengthened, so a position that was good stays
good.
-/

namespace TripleTables

open TripleTables.Graph

/-- The second block is of the same kind and begins with what the first holds. -/
inductive Block.Grows : Block → Block → Prop
  | required {old new : List Triple} (triples : old <+: new) :
      Grows (.required old) (.required new)
  | optional {old new : OptionalGroup} (triples : old.triples <+: new.triples)
      (nested : old.nested <+: new.nested) (filters : old.filters <+: new.filters) :
      Grows (.optional old) (.optional new)

theorem Block.Grows.refl (block : Block) : block.Grows block := by
  cases block with
  | required triples => exact .required (List.prefix_refl _)
  | optional group =>
      exact .optional (List.prefix_refl _) (List.prefix_refl _) (List.prefix_refl _)

theorem Block.Grows.trans {first second third : Block} (early : first.Grows second)
    (late : second.Grows third) : first.Grows third := by
  cases early with
  | required triples =>
      cases late with
      | required triples' => exact .required (triples.trans triples')
  | optional triples nested filters =>
      cases late with
      | optional triples' nested' filters' =>
          exact .optional (triples.trans triples') (nested.trans nested') (filters.trans filters')

namespace Builder

/-! ## Blocks grow in place -/

/-- Every block is still at its position and may have grown. -/
def GrowInto (blocks later : List Block) : Prop :=
  ∀ (position : Nat) (block : Block), blocks[position]? = some block →
    ∃ grown, later[position]? = some grown ∧ block.Grows grown

namespace GrowInto

variable {blocks later : List Block}

theorem refl (blocks : List Block) : GrowInto blocks blocks :=
  fun _ block found => ⟨block, found, .refl block⟩

theorem trans {latest : List Block} (early : GrowInto blocks later)
    (late : GrowInto later latest) : GrowInto blocks latest := by
  intro position block found
  obtain ⟨middle, foundMiddle, grows⟩ := early position block found
  obtain ⟨last, foundLast, grows'⟩ := late position middle foundMiddle
  exact ⟨last, foundLast, grows.trans grows'⟩

theorem append (blocks : List Block) (last : Block) : GrowInto blocks (blocks ++ [last]) :=
  fun _ block found => ⟨block, getElem?_of_concat found last, .refl block⟩

theorem set {position : Nat} {old new : Block} (found : blocks[position]? = some old)
    (grows : old.Grows new) : GrowInto blocks (blocks.set position new) := by
  intro other block isBlock
  by_cases same : position = other
  · subst same
    rw [found] at isBlock
    cases isBlock
    exact ⟨new, List.getElem?_set_self (List.getElem?_eq_some_iff.mp found).1, grows⟩
  · exact ⟨block, by rw [List.getElem?_set_ne same, isBlock], .refl _⟩

theorem pushRequired (blocks : List Block) (triple : Triple) :
    GrowInto blocks (pushRequired blocks triple) := by
  rcases pushRequired_eq blocks triple with pushed | ⟨front, triples, rfl, pushed⟩
  · rw [pushed]
    exact append blocks _
  · intro position block found
    rw [pushed]
    rcases getElem?_concat found with old | ⟨rfl, rfl⟩
    · exact ⟨block, getElem?_of_concat old _, .refl _⟩
    · exact ⟨_, List.getElem?_concat_length, .required (List.prefix_append _ _)⟩

theorem foldl_pushRequired (triples : List Triple) (blocks : List Block) :
    GrowInto blocks (triples.foldl Builder.pushRequired blocks) := by
  induction triples generalizing blocks with
  | nil => exact refl blocks
  | cons triple rest ih => exact (pushRequired blocks triple).trans (ih _)

theorem blocksWithTable (builder : Builder) (optional : Bool) (triples : List Triple) :
    GrowInto builder.blocks (builder.blocksWithTable optional triples) := by
  cases optional with
  | true => exact append builder.blocks _
  | false => exact foldl_pushRequired triples builder.blocks

theorem grows_placeInGroup (nullable : Bool) (triple : Triple) (group : OptionalGroup) :
    (Block.optional group).Grows (.optional (placeInGroup nullable triple group)) := by
  cases nullable with
  | true =>
      exact .optional (List.prefix_refl _) (List.prefix_append _ _) (List.prefix_refl _)
  | false =>
      exact .optional (List.prefix_append _ _) (List.prefix_refl _) (List.prefix_refl _)

theorem placeColumn {builder : Builder} {binding : Binding} {nullable optional : Bool}
    {triple : Triple} {inGroup : Bool}
    (placed : builder.placeColumn binding nullable optional triple = .ok (blocks, inGroup)) :
    GrowInto builder.blocks blocks := by
  rcases placeColumn_spec placed with ⟨position, group, _, found, rfl⟩ | ⟨_, rfl | rfl⟩
  · exact set found (grows_placeInGroup nullable triple group)
  · exact append builder.blocks _
  · exact pushRequired builder.blocks triple

end GrowInto

/-! ## Later builders -/

/-- Nothing of the builder is moved or taken away in the later one. -/
structure Continues (builder later : Builder) : Prop where
  bindings : builder.bindings <+: later.bindings
  columns : builder.columns <+: later.columns
  columnIndex : builder.columnIndex <+: later.columnIndex
  blocks : GrowInto builder.blocks later.blocks

namespace Continues

variable {builder next : Builder}

theorem refl (builder : Builder) : Continues builder builder :=
  ⟨List.prefix_refl _, List.prefix_refl _, List.prefix_refl _, .refl _⟩

theorem trans {later : Builder} (early : Continues builder next) (late : Continues next later) :
    Continues builder later :=
  ⟨early.bindings.trans late.bindings, early.columns.trans late.columns,
    early.columnIndex.trans late.columnIndex, early.blocks.trans late.blocks⟩

/-- The lists that the blocks belong to are left alone. -/
theorem of_blocks {blocks : List Block} (grow : GrowInto builder.blocks blocks) :
    Continues builder { builder with blocks } :=
  ⟨List.prefix_refl _, List.prefix_refl _, List.prefix_refl _, grow⟩

theorem of_fills (fills : Fills builder next) : Continues builder next := by
  cases fills with
  | column registers =>
      cases registers with
      | intro fresh bound declared filled placed =>
          exact ⟨List.prefix_refl _, List.prefix_append _ _, List.prefix_append _ _,
            .placeColumn placed⟩
  | projection projection free =>
      exact ⟨List.prefix_refl _, List.prefix_refl _, List.prefix_refl _, .refl _⟩
  | @condition _ _ _ group condition bound grouped found =>
      have grows : (Block.optional group).Grows (.optional (group.withFilter condition)) :=
        .optional (List.prefix_refl _) (List.prefix_refl _) (List.prefix_append _ _)
      exact of_blocks (.set (isGroup_of_groupAt found) grows)
  | outside =>
      exact ⟨List.prefix_refl _, List.prefix_refl _, List.prefix_refl _, .refl _⟩

theorem of_change (change : Change builder next) : Continues builder next := by
  cases change with
  | table binds =>
      cases binds with
      | intro resolved free filled =>
          exact ⟨List.prefix_append _ _, List.prefix_refl _, List.prefix_refl _,
            .blocksWithTable _ _ _⟩
  | fill fills => exact of_fills fills

/-- An operation, whether it succeeds or fails, only adds. -/
theorem operation (operation : Operation) (builder : Builder) :
    Continues builder (Run.after operation.run builder) := by
  refine Run.kept_along ?_ (moves_operation operation builder) (refl builder)
  intro middle next change continues
  exact continues.trans (of_change change)

theorem afterAll (operations : List Operation) (builder : Builder) :
    Continues builder (afterAll operations builder) := by
  induction operations generalizing builder with
  | nil => exact refl builder
  | cons first rest ih => exact (operation first builder).trans (ih _)

end Continues

/-! ## What the references mean -/

/-- The parts of a builder over a catalog refer to each other as a reader of
the builder takes them to. -/
structure Coherent (catalog : Catalog) (builder : Builder) : Prop where
  /-- The id of a binding is its position. -/
  ids : ∀ {i : Nat} {binding : Binding}, builder.bindings[i]? = some binding → binding.id = i
  /-- A left-joined binding points at an optional block. -/
  groups : ∀ {i : Nat} {binding : Binding} {position : Nat},
    builder.bindings[i]? = some binding → binding.group = some position →
      ∃ group, builder.blocks[position]? = some (.optional group)
  /-- No two bindings share a group. -/
  apart : ∀ {i j : Nat} {first second : Binding} {position : Nat},
    builder.bindings[i]? = some first → builder.bindings[j]? = some second →
      first.group = some position → second.group = some position → i = j
  /-- The index leads to kept columns. -/
  inside : ∀ {place : Nat × Nat} {position : Nat},
    builder.columnIndex.lookup place = some position → position < builder.columns.length
  /-- Every kept column is reached from exactly one place. -/
  reached : ∀ {position : Nat}, position < builder.columns.length →
    ∃! place, builder.columnIndex.lookup place = some position
  /-- What is kept of the column at a place is what the catalog says of it,
  under the name and the variable that it has in its binding. -/
  kept : ∀ {place : Nat × Nat} {position : Nat},
    builder.columnIndex.lookup place = some position →
      ∃ binding column mentioned,
        builder.bindings[place.1]? = some binding ∧
        binding.table ∈ catalog.tables ∧
        binding.table.columns[place.2]? = some column ∧
        builder.columns[position]? = some mentioned ∧
        mentioned.name = binding.columnName column.shortName ∧
        mentioned.var = Variable.ofName mentioned.name ∧
        mentioned.sqlType = column.sqlType ∧
        mentioned.nullable = column.nullable
  /-- The taken names are those of the result columns. -/
  shown : ∀ name, name ∈ builder.displayNames ↔
    ∃ projection ∈ builder.projections, projection.displayName = name
  /-- No two result columns have the same name. -/
  distinctNames : (builder.projections.map Projection.displayName).Nodup

namespace Consistent

variable {builder : Builder}

theorem eq_of_group (consistent : Consistent builder) {i j : Nat} {first second : Binding}
    {position : Nat} (isFirst : builder.bindings[i]? = some first)
    (isSecond : builder.bindings[j]? = some second) (firstGroup : first.group = some position)
    (secondGroup : second.group = some position) : i = j := by
  rcases Nat.lt_trichotomy i j with less | same | more
  · exact absurd (consistent.ordered less isFirst isSecond firstGroup secondGroup) (Nat.lt_irrefl _)
  · exact same
  · exact absurd (consistent.ordered more isSecond isFirst secondGroup firstGroup) (Nat.lt_irrefl _)

/-- The index is a bijection onto the positions of the kept columns. -/
theorem existsUnique_place (consistent : Consistent builder) {position : Nat}
    (inside : position < builder.columns.length) :
    ∃! place, builder.columnIndex.lookup place = some position := by
  have listed : position ∈ builder.columnIndex.map Prod.snd := by
    rw [consistent.positions]
    exact List.mem_range.mpr inside
  obtain ⟨⟨place, _⟩, indexed, rfl⟩ := List.mem_map.mp listed
  refine ⟨place, consistent.lookup_eq_some_iff.mpr indexed, ?_⟩
  intro other looked
  have distinct : (builder.columnIndex.map Prod.snd).Nodup := by
    rw [consistent.positions]
    exact List.nodup_range
  have same : (other, _) = (place, _) :=
    List.inj_on_of_nodup_map distinct (consistent.lookup_eq_some_iff.mp looked) indexed rfl
  exact congrArg Prod.fst same

theorem coherent {catalog : Catalog} (consistent : Consistent builder)
    (bound : Bound catalog builder) : Coherent catalog builder where
  ids := consistent.ids
  groups := consistent.groups
  apart := consistent.eq_of_group
  inside := by
    intro place position looked
    have indexed := consistent.lookup_eq_some_iff.mp looked
    have listed : position ∈ builder.columnIndex.map Prod.snd := List.mem_map_of_mem indexed
    rw [consistent.positions] at listed
    exact List.mem_range.mp listed
  reached := consistent.existsUnique_place
  kept := by
    intro place position looked
    obtain ⟨binding, column, _, inGroup, isBinding, declared, _, found⟩ :=
      consistent.mentioned (consistent.lookup_eq_some_iff.mp looked)
    exact ⟨binding, column, mention binding column inGroup, isBinding,
      bound.tables binding (List.mem_of_getElem? isBinding), declared, found, rfl, rfl, rfl, rfl⟩
  shown := by
    intro name
    rw [consistent.shown, List.mem_map]
  distinctNames := by
    rw [← consistent.shown]
    exact consistent.distinctNames

end Consistent

/-- After any operations, whether they succeed or fail, the references of a
builder mean what they should, and further operations leave them in force. -/
theorem coherent_afterAll (catalog : Catalog) (defaultSchema : Option String) (useService : Bool)
    (operations further : List Operation) :
    Coherent catalog (afterAll operations { catalog, defaultSchema, useService }) ∧
      Continues (afterAll operations { catalog, defaultSchema, useService })
        (afterAll (operations ++ further) { catalog, defaultSchema, useService }) := by
  have reachable : Reachable catalog (afterAll operations { catalog, defaultSchema, useService }) :=
    (Reachable.empty defaultSchema useService).afterAll operations
  refine ⟨reachable.consistent.coherent reachable.bound, ?_⟩
  rw [afterAll_append]
  exact .afterAll further _

end Builder

end TripleTables
