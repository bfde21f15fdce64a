import Mathlib.Data.List.Chain
import TripleTables.Proofs.Builder.Layout

/-!
# Blocks of the pattern

Triples that have to match go into the last block as long as it is a required
one, so no two required blocks stand side by side in a builder, and none is
empty (`Separated`).  The pattern of the query leaves out the groups that hold
nothing.  Such a group belongs to a left-joined table that has given nothing to
the pattern: no triple of its own, no column and no condition.  It has parted the
triples before it from those behind it all the same, so these are the places
where two required blocks of the query meet.
-/

namespace TripleTables

open TripleTables.Graph

/-- The triples of the block have to match. -/
def Block.isRequired : Block → Bool
  | .required _ => true
  | .optional _ => false

namespace Builder

/-! ## Required blocks stand apart -/

/-- No two required blocks stand side by side, and none is empty. -/
structure Separated (blocks : List Block) : Prop where
  apart : (blocks.map Block.isRequired).IsChain fun first second => (first && second) = false
  filled : Block.required [] ∉ blocks

/-- A required triple opens a new block unless the last block is a required
one. -/
theorem map_isRequired_pushRequired (blocks : List Block) (triple : Triple) :
    (pushRequired blocks triple).map Block.isRequired =
      blocks.map Block.isRequired ++
        if (blocks.map Block.isRequired).getLast? = some true then [] else [true] := by
  fun_induction pushRequired blocks triple with
  | case1 triple => rfl
  | case2 triples triple => rfl
  | case3 block rest triple isLast ih =>
      cases rest with
      | nil =>
          cases block with
          | required triples => exact absurd rfl (isLast triples rfl)
          | optional group => rfl
      | cons next others =>
          rw [List.map_cons, ih]
          simp only [List.map_cons, List.getLast?_cons_cons, List.cons_append]

namespace Separated

variable {blocks : List Block}

theorem pushRequired (separated : Separated blocks) (triple : Triple) :
    Separated (Builder.pushRequired blocks triple) := by
  constructor
  · rw [map_isRequired_pushRequired]
    split
    · rw [List.append_nil]
      exact separated.apart
    · rename_i notRequired
      refine List.isChain_append.mpr ⟨separated.apart, .singleton _, ?_⟩
      intro last isLast first isFirst
      cases last with
      | false => rfl
      | true => exact absurd isLast notRequired
  · rcases pushRequired_eq blocks triple with pushed | ⟨front, triples, split, pushed⟩
    · simpa [pushed] using separated.filled
    · have filled := separated.filled
      rw [split] at filled
      simp_all

theorem foldl_pushRequired (separated : Separated blocks) (triples : List Triple) :
    Separated (triples.foldl Builder.pushRequired blocks) := by
  induction triples generalizing blocks with
  | nil => exact separated
  | cons triple rest ih => exact ih (separated.pushRequired triple)

theorem concat_optional (separated : Separated blocks) (group : OptionalGroup) :
    Separated (blocks ++ [.optional group]) := by
  constructor
  · rw [List.map_append]
    refine List.isChain_append.mpr ⟨separated.apart, .singleton _, ?_⟩
    intro last _ first isFirst
    cases isFirst
    exact Bool.and_false last
  · simpa using separated.filled

/-- A group may be replaced by another one. -/
theorem set_optional (separated : Separated blocks) {position : Nat}
    (isGroup : IsGroup blocks position) (group : OptionalGroup) :
    Separated (blocks.set position (.optional group)) := by
  obtain ⟨old, found⟩ := isGroup
  constructor
  · have same : (blocks.set position (.optional group)).map Block.isRequired =
        blocks.map Block.isRequired := by
      obtain ⟨inside, isOld⟩ := List.getElem?_eq_some_iff.mp found
      apply List.ext_getElem (by simp)
      intro i _ _
      by_cases here : position = i
      · subst here
        simp [isOld, Block.isRequired]
      · simp [List.getElem_set_ne here]
    rw [same]
    exact separated.apart
  · intro member
    rcases List.mem_or_eq_of_mem_set member with old | new
    · exact separated.filled old
    · cases new

theorem not_required_succ (separated : Separated blocks) {i : Nat} {first second : List Triple}
    (isFirst : blocks[i]? = some (.required first)) :
    blocks[i + 1]? ≠ some (.required second) := by
  intro isSecond
  obtain ⟨inside, isSecond⟩ := List.getElem?_eq_some_iff.mp isSecond
  obtain ⟨_, isFirst⟩ := List.getElem?_eq_some_iff.mp isFirst
  have apart := List.isChain_iff_getElem.mp separated.apart i (by simpa using inside)
  simp [isFirst, isSecond, Block.isRequired] at apart

end Separated

theorem separated_of_change {builder next : Builder} (change : Change builder next)
    (separated : Separated builder.blocks) : Separated next.blocks := by
  cases change with
  | table binds =>
      rcases binds with @⟨_, _, _, optional, triples, _, _, _⟩
      cases optional with
      | true => exact separated.concat_optional _
      | false => exact separated.foldl_pushRequired triples
  | fill fills =>
      cases fills with
      | column registers =>
          rcases registers with @⟨_, _, _, _, triple, _, _, _, _, _, _, placed⟩
          rcases placeColumn_spec placed with ⟨position, group, _, found, rfl⟩ | ⟨_, rfl | rfl⟩
          · exact separated.set_optional ⟨group, found⟩ _
          · exact separated.concat_optional _
          · exact separated.pushRequired triple
      | projection projection free => exact separated
      | condition condition bound grouped found =>
          exact separated.set_optional ⟨_, isGroup_of_groupAt found⟩ _
      | outside => exact separated

/-- In every reachable builder the required blocks stand apart. -/
theorem Reachable.separated {catalog : Catalog} {builder : Builder}
    (reachable : Reachable catalog builder) : Separated builder.blocks :=
  reachable.keeps (fun _ _ => ⟨.nil, List.not_mem_nil⟩) fun _ _ => separated_of_change

/-! ## Empty groups -/

/-- The table that is left-joined at the position has given nothing to the
pattern: no triple of its own, no column and no condition. -/
def IdleAt (builder : Builder) (position : Nat) : Prop :=
  ∃ id binding, builder.bindings[id]? = some binding ∧ binding.group = some position ∧
    binding.ownTriples = [] ∧
    (∀ registration ∈ builder.registrations, registration.place.1 ≠ id) ∧
    ∀ group, builder.groupAt position = .ok group → group.filters = []

theorem columnsOf_eq_nil_iff {builder : Builder} {id : Nat} :
    (∀ nullable, builder.columnsOf id nullable = []) ↔
      ∀ registration ∈ builder.registrations, registration.place.1 ≠ id := by
  simp only [columnsOf, List.filter_eq_nil_iff, Bool.and_eq_true, beq_iff_eq, not_and]
  constructor
  · intro none registration registered same
    exact none registration.column.nullable registration registered same rfl
  · intro none nullable registration registered same
    exact absurd same (none registration registered)

theorem groupAt_of_getElem? {builder : Builder} {position : Nat} {group : OptionalGroup}
    (found : builder.blocks[position]? = some (.optional group)) :
    builder.groupAt position = .ok group := by
  rw [groupAt, found]

/-- An empty group belongs to a left join: any other holds the triple of a
column. -/
theorem Placed.isJoinedAt_of_isVoid {builder : Builder} (placed : Placed builder) {position : Nat}
    {block : Block} (found : builder.blocks[position]? = some block) (void : block.isVoid = true) :
    builder.isJoinedAt position = true := by
  cases block with
  | required triples => cases void
  | optional group =>
      by_contra notJoined
      have loose : group ∈ looseGroups builder.isJoinedAt builder.blocks := by
        refine List.mem_filterMap.mpr ⟨(.optional group, position), ?_, ?_⟩
        · exact List.mem_zipIdx_iff_getElem?.mpr found
        · simp [looseGroup?, notJoined]
      rw [placed.loose] at loose
      obtain ⟨registration, _, rfl⟩ := List.mem_map.mp loose
      cases void

/-- A block that is left out of the query is the group of a left-joined table that
has given nothing. -/
theorem Placed.isVoid_iff_idleAt {builder : Builder} (placed : Placed builder) {position : Nat}
    {block : Block} (found : builder.blocks[position]? = some block) :
    block.isVoid = true ↔ builder.IdleAt position := by
  constructor
  · intro void
    obtain ⟨binding, member, grouped⟩ :=
      isJoinedAt_iff.mp (placed.isJoinedAt_of_isVoid found void)
    obtain ⟨id, bound⟩ := List.mem_iff_getElem?.mp member
    obtain ⟨filters, isGroup⟩ := placed.joined bound grouped
    rw [found] at isGroup
    cases isGroup
    simp only [Block.isVoid, OptionalGroup.isEmpty, Bool.and_eq_true, List.isEmpty_iff,
      List.append_eq_nil_iff, List.map_eq_nil_iff] at void
    obtain ⟨⟨⟨noTriples, noColumns⟩, noNested⟩, rfl⟩ := void
    refine ⟨id, binding, bound, grouped, noTriples, columnsOf_eq_nil_iff.mp ?_, ?_⟩
    · rintro (_ | _)
      · exact noColumns
      · exact noNested
    · intro group isGroup
      rw [groupAt_of_getElem? found] at isGroup
      cases isGroup
      rfl
  · rintro ⟨id, binding, bound, grouped, noTriples, noColumns, noFilters⟩
    obtain ⟨filters, isGroup⟩ := placed.joined bound grouped
    have empty := columnsOf_eq_nil_iff.mpr noColumns
    have unfiltered : filters = [] := noFilters _ (groupAt_of_getElem? isGroup)
    rw [found] at isGroup
    cases isGroup
    simp [Block.isVoid, OptionalGroup.isEmpty, noTriples, empty, unfiltered]

/-! ## Blocks of the query -/

theorem exists_append_of_getElem? {α : Type} {values : List α} {i : Nat} {value : α}
    (found : values[i]? = some value) :
    ∃ front rest, values = front ++ value :: rest ∧ front.length = i := by
  obtain ⟨inside, rfl⟩ := List.getElem?_eq_some_iff.mp found
  refine ⟨values.take i, values.drop (i + 1), ?_, List.length_take_of_le inside.le⟩
  rw [List.getElem_cons_drop, List.take_append_drop]

/-- Two entries stand side by side after a selection exactly when both are
selected and nothing between them is. -/
theorem isInfix_filter_iff {α : Type} {selects : α → Bool} {values : List α} {first second : α} :
    [first, second] <:+: values.filter selects ↔
      ∃ i j : Nat, i < j ∧ values[i]? = some first ∧ values[j]? = some second ∧
        selects first = true ∧ selects second = true ∧
        ∀ k value, i < k → k < j → values[k]? = some value → selects value = false := by
  constructor
  · rintro ⟨front, rest, split⟩
    rw [List.append_assoc, eq_comm, List.filter_eq_append_iff] at split
    obtain ⟨before, others, rfl, rfl, split⟩ := split
    obtain ⟨skipped, others, rfl, _, isFirst, split⟩ := List.filter_eq_cons_iff.mp split
    obtain ⟨between, after, rfl, dropped, isSecond, _⟩ := List.filter_eq_cons_iff.mp split
    refine ⟨before.length + skipped.length, before.length + skipped.length + 1 + between.length,
      by omega, ?_, ?_, isFirst, isSecond, ?_⟩
    · grind
    · grind
    · intro k value behind ahead found
      have inside : value ∈ between := by grind
      simpa using dropped value inside
  · rintro ⟨i, j, less, isFirst, isSecond, selected, selected', dropped⟩
    obtain ⟨front, others, rfl, rfl⟩ := exists_append_of_getElem? isFirst
    obtain ⟨k, rfl⟩ : ∃ k, j = front.length + (k + 1) := ⟨j - front.length - 1, by omega⟩
    have behind : ∀ k, (front ++ first :: others)[front.length + (k + 1)]? = others[k]? := by
      intro k
      rw [List.getElem?_append_right (Nat.le_add_right _ _), Nat.add_sub_cancel_left,
        List.getElem?_cons_succ]
    rw [behind] at isSecond
    obtain ⟨between, rest, rfl, rfl⟩ := exists_append_of_getElem? isSecond
    have none : between.filter selects = [] := by
      rw [List.filter_eq_nil_iff]
      intro value member
      obtain ⟨k, found⟩ := List.mem_iff_getElem?.mp member
      have inside := (List.getElem?_eq_some_iff.mp found).1
      rw [dropped (front.length + (k + 1)) value (by omega) (by omega)]
      · decide
      · rw [behind, List.getElem?_append_left inside, found]
    refine ⟨front.filter selects, rest.filter selects, ?_⟩
    simp [none, selected, selected']

end Builder

/-- The block that the element is. -/
def Element.block? : Element → Option Block
  | .block given => some given
  | .bind _ _ | .filter _ => none

namespace Builder

theorem filterMap_block?_elements (builder : Builder) :
    builder.elements.filterMap Element.block? =
      builder.blocks.filter fun block => !block.isVoid := by
  simp [elements_eq, List.filterMap_append, List.filterMap_map, Function.comp_def, Element.block?]

/-- Blocks stand side by side in the query when they do among the blocks that hold
something. -/
theorem isInfix_elements_iff {builder : Builder} {blocks : List Block} :
    blocks.map Element.block <:+: builder.elements ↔
      blocks <:+: builder.blocks.filter fun block => !block.isVoid := by
  constructor
  · intro inElements
    have kept := inElements.filterMap Element.block?
    rw [filterMap_block?_elements, List.filterMap_map] at kept
    simpa [Function.comp_def, Element.block?] using kept
  · intro inBlocks
    refine (inBlocks.map Element.block).trans (List.IsPrefix.isInfix ?_)
    rw [elements_eq]
    exact List.prefix_append _ _

theorem mem_elements_iff {builder : Builder} {block : Block} :
    Element.block block ∈ builder.elements ↔ block ∈ builder.blocks ∧ block.isVoid = false := by
  simp [elements]

/-- After any operations no block of the query is empty.  Two required blocks stand
side by side in it exactly where tables have been left-joined in between, and all
of these have given nothing to the pattern. -/
theorem required_adjacent_iff_idleAt {catalog : Catalog} (defaultSchema : Option String)
    (useService : Bool) (operations : List Operation) {query : Query}
    (built : (afterAll operations { catalog, defaultSchema, useService }).build = .ok query) :
    Element.block (.required []) ∉ query.elements ∧
    (∀ group, Element.block (.optional group) ∈ query.elements → group.isEmpty = false) ∧
    ∀ first second,
      [.block (.required first), .block (.required second)] <:+: query.elements ↔
        ∃ i j : Nat, i + 1 < j ∧
          (afterAll operations { catalog, defaultSchema, useService }).blocks[i]? =
            some (.required first) ∧
          (afterAll operations { catalog, defaultSchema, useService }).blocks[j]? =
            some (.required second) ∧
          ∀ k, i < k → k < j →
            (afterAll operations { catalog, defaultSchema, useService }).IdleAt k := by
  have reachable : Reachable catalog (afterAll operations { catalog, defaultSchema, useService }) :=
    (Reachable.empty defaultSchema useService).afterAll operations
  generalize afterAll operations { catalog, defaultSchema, useService } = builder at *
  have separated := reachable.separated
  have placed := reachable.placed
  rw [elements_of_build built]
  refine ⟨fun member => separated.filled (mem_elements_iff.mp member).1, fun group member =>
    (mem_elements_iff.mp member).2, fun first second => ?_⟩
  rw [show [Element.block (.required first), .block (.required second)] =
    [Block.required first, .required second].map .block from rfl, isInfix_elements_iff,
    isInfix_filter_iff]
  constructor
  · rintro ⟨i, j, less, isFirst, isSecond, _, _, dropped⟩
    have apart : i + 1 ≠ j := by
      rintro rfl
      exact separated.not_required_succ isFirst isSecond
    refine ⟨i, j, by omega, isFirst, isSecond, fun k behind ahead => ?_⟩
    have inside : k < builder.blocks.length :=
      ahead.trans (List.getElem?_eq_some_iff.mp isSecond).1
    have found := List.getElem?_eq_getElem inside
    refine (placed.isVoid_iff_idleAt found).mp ?_
    simpa using dropped k _ behind ahead found
  · rintro ⟨i, j, less, isFirst, isSecond, idle⟩
    refine ⟨i, j, by omega, isFirst, isSecond, rfl, rfl, fun k block behind ahead found => ?_⟩
    rw [(placed.isVoid_iff_idleAt found).mpr (idle k behind ahead)]
    rfl

/-- Between two bindings whose columns are registered the table is left-joined, and
nothing is asked of it. -/
def partedByLeftJoin : List Operation :=
  [ .addTable { table := some "foo" } (some "a") false
  , .addColumn { table := some "a", column := some "x" } false
  , .addTable { table := some "foo" } (some "b") true
  , .addTable { table := some "foo" } (some "c") false
  , .addColumn { table := some "c", column := some "x" } false ]

/-- The block between the two required ones is the group of the table that has given
nothing. -/
theorem required_adjacent_iff_idleAt_partedByLeftJoin :
    ∃ catalog query, oneTable.assemble = .ok catalog ∧
      (afterAll partedByLeftJoin { catalog }).build = .ok query ∧
      (afterAll partedByLeftJoin { catalog }).IdleAt 1 := by
  have blocks : ∀ catalog, oneTable.assemble = .ok catalog → ∃ query first second,
      (afterAll partedByLeftJoin { catalog }).build = .ok query ∧
      [.block (.required first), .block (.required second)] <:+: query.elements ∧
      (afterAll partedByLeftJoin { catalog }).blocks.length = 3 := by
    rintro _ ⟨⟩
    exact ⟨_, _, _, rfl, ⟨[], [], rfl⟩, rfl⟩
  obtain ⟨catalog, assembled⟩ : ∃ catalog, oneTable.assemble = .ok catalog := ⟨_, rfl⟩
  obtain ⟨query, first, second, built, adjacent, count⟩ := blocks catalog assembled
  obtain ⟨i, j, apart, _, isSecond, idle⟩ :=
    ((required_adjacent_iff_idleAt none false partedByLeftJoin built).2.2 first second).mp adjacent
  have inside := (List.getElem?_eq_some_iff.mp isSecond).1
  exact ⟨catalog, query, assembled, built, idle 1 (by omega) (by omega)⟩

/-- Two required blocks meet, though no group, bind or filter stands between
them. -/
theorem required_adjacent_partedByLeftJoin :
    ∃ catalog query first second, oneTable.assemble = .ok catalog ∧
      (afterAll partedByLeftJoin { catalog }).build = .ok query ∧
      [.block (.required first), .block (.required second)] <:+: query.elements := by
  exact ⟨_, _, _, _, rfl, rfl, ⟨[], [], rfl⟩⟩

end Builder

end TripleTables
