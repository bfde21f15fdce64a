import TripleTables.Proofs.Builder.Consistent

/-!
# What a left join sees

The conditions of a left join stand in the optional group of the joined table.
They see the triples of the group and of the blocks before it.  When all tables
are bound before the first column is registered, these are exactly the own
triples of the tables up to the joined one and the triples of the registered
columns of the left-joined ones among them: a column of any other table is
registered behind all groups.
-/

namespace TripleTables

open TripleTables.Graph

/-- The triple comes from one of the table's own templates. -/
def Binding.OwnTriple (binding : Binding) (triple : Triple) : Prop :=
  ∃ triples, binding.table.triples binding.subject = .ok triples ∧ triple ∈ triples

namespace Builder

/-! ## Triples of the first blocks -/

/-- The triples of the first `limit` blocks. -/
def triplesUpTo (blocks : List Block) (limit : Nat) : List Triple :=
  (blocks.take limit).flatMap Block.allTriples

theorem mem_triplesUpTo_iff {blocks : List Block} {limit : Nat} {triple : Triple} :
    triple ∈ triplesUpTo blocks limit ↔
      ∃ i block, i < limit ∧ blocks[i]? = some block ∧ triple ∈ block.allTriples := by
  rw [triplesUpTo, List.mem_flatMap]
  constructor
  · rintro ⟨block, stands, member⟩
    obtain ⟨i, found⟩ := List.mem_iff_getElem?.mp stands
    rw [List.getElem?_take] at found
    split at found
    · rename_i inside
      exact ⟨i, block, inside, found, member⟩
    · contradiction
  · rintro ⟨i, block, inside, found, member⟩
    have stands : (blocks.take limit)[i]? = some block := by
      rw [List.getElem?_take, if_pos inside, found]
    exact ⟨block, List.mem_of_getElem? stands, member⟩

/-- Changing one block changes what stands before the limit only if the block
does. -/
theorem mem_triplesUpTo_set {blocks : List Block} {position limit : Nat} {old new : Block}
    {added : List Triple} (found : blocks[position]? = some old)
    (grown : ∀ triple, triple ∈ new.allTriples ↔ triple ∈ old.allTriples ∨ triple ∈ added)
    {triple : Triple} :
    triple ∈ triplesUpTo (blocks.set position new) limit ↔
      triple ∈ triplesUpTo blocks limit ∨ position < limit ∧ triple ∈ added := by
  have inside := (List.getElem?_eq_some_iff.mp found).1
  simp only [mem_triplesUpTo_iff]
  constructor
  · rintro ⟨i, block, before, stands, member⟩
    by_cases same : position = i
    · subst same
      rw [List.getElem?_set_self inside] at stands
      cases stands
      rcases (grown triple).mp member with kept | new
      · exact .inl ⟨position, old, before, found, kept⟩
      · exact .inr ⟨before, new⟩
    · rw [List.getElem?_set_ne same] at stands
      exact .inl ⟨i, block, before, stands, member⟩
  · rintro (⟨i, block, before, stands, member⟩ | ⟨before, isAdded⟩)
    · by_cases same : position = i
      · subst same
        rw [found] at stands
        cases stands
        exact ⟨position, new, before, List.getElem?_set_self inside,
          (grown triple).mpr (.inl member)⟩
      · exact ⟨i, block, before, by rw [List.getElem?_set_ne same, stands], member⟩
    · exact ⟨position, new, before, List.getElem?_set_self inside,
        (grown triple).mpr (.inr isAdded)⟩

theorem perm_append_right_comm {α : Type} (front middle back : List α) :
    (front ++ middle ++ back).Perm (front ++ back ++ middle) := by
  rw [List.append_assoc, List.append_assoc]
  exact List.perm_append_comm.append_left front

/-- A group gains the triple that is put into it. -/
theorem perm_allTriples_placeInGroup (nullable : Bool) (triple : Triple) (group : OptionalGroup) :
    (Block.optional (placeInGroup nullable triple group)).allTriples.Perm
      ((Block.optional group).allTriples ++ [triple]) := by
  cases nullable with
  | true => simp [placeInGroup, Block.allTriples, OptionalGroup.allTriples]
  | false =>
      simp only [placeInGroup, Block.allTriples, OptionalGroup.allTriples]
      exact perm_append_right_comm _ _ _

theorem mem_allTriples_placeInGroup (nullable : Bool) (added : Triple) (group : OptionalGroup)
    (triple : Triple) :
    triple ∈ (Block.optional (placeInGroup nullable added group)).allTriples ↔
      triple ∈ (Block.optional group).allTriples ∨ triple ∈ [added] :=
  (perm_allTriples_placeInGroup nullable added group).mem_iff.trans List.mem_append

/-- A required triple comes behind all others. -/
theorem flatMap_pushRequired {part : Block → List Triple}
    (whole : ∀ triples, part (.required triples) = triples) (blocks : List Block)
    (triple : Triple) :
    (pushRequired blocks triple).flatMap part = blocks.flatMap part ++ [triple] := by
  rcases pushRequired_eq blocks triple with pushed | ⟨front, triples, split, pushed⟩
  · rw [pushed]
    simp [whole]
  · rw [pushed, split]
    simp [whole]

theorem flatMap_foldl_pushRequired {part : Block → List Triple}
    (whole : ∀ triples, part (.required triples) = triples) (triples : List Triple)
    (blocks : List Block) :
    (triples.foldl pushRequired blocks).flatMap part = blocks.flatMap part ++ triples := by
  induction triples generalizing blocks with
  | nil => simp
  | cons triple rest ih =>
      rw [List.foldl_cons, ih, flatMap_pushRequired whole, List.append_assoc,
        List.singleton_append]

theorem flatMap_allTriples_blocksWithTable (builder : Builder) (optional : Bool)
    (triples : List Triple) :
    (builder.blocksWithTable optional triples).flatMap Block.allTriples =
      builder.blocks.flatMap Block.allTriples ++ triples := by
  cases optional with
  | true => simp [blocksWithTable, Block.allTriples, OptionalGroup.allTriples]
  | false => exact flatMap_foldl_pushRequired (fun _ => rfl) triples builder.blocks

theorem allTriples_of_isVoid {block : Block} (void : block.isVoid = true) :
    block.allTriples = [] := by
  cases block with
  | required triples => simp [Block.isVoid] at void
  | optional group =>
      simp only [Block.isVoid, OptionalGroup.isEmpty, Bool.and_eq_true,
        List.isEmpty_iff] at void
      simp [Block.allTriples, OptionalGroup.allTriples, void.1.1, void.1.2]

/-- A block that holds nothing can be left out. -/
theorem flatMap_filter_isVoid {part : Block → List Triple}
    (nothing : ∀ block, block.isVoid = true → part block = []) (blocks : List Block) :
    (blocks.filter (fun block => !block.isVoid)).flatMap part = blocks.flatMap part := by
  induction blocks with
  | nil => rfl
  | cons block rest ih =>
      cases void : block.isVoid with
      | true =>
          rw [List.filter_cons_of_neg (by simp [void]), ih, List.flatMap_cons,
            nothing block void, List.nil_append]
      | false =>
          rw [List.filter_cons_of_pos (by simp [void]), List.flatMap_cons, ih, List.flatMap_cons]

theorem flatMap_allTriples_filter (blocks : List Block) :
    (blocks.filter (fun block => !block.isVoid)).flatMap Block.allTriples =
      blocks.flatMap Block.allTriples :=
  flatMap_filter_isVoid (fun _ => allTriples_of_isVoid) blocks

/-! ## The invariant -/

/-- The triple belongs to a registered column of the binding at a position. -/
def ColumnTriple (builder : Builder) (k : Nat) (binding : Binding) (triple : Triple) : Prop :=
  ∃ position column, (builder.registered? (k, position)).isSome ∧
    binding.table.columns[position]? = some column ∧
    columnTriple binding column (binding.columnVariable column) = .ok triple

/-- The triple is there for the left join of the binding at a position: it is
an own triple of a table up to it, or the triple of a column of a left-joined
one. -/
def Offers (builder : Builder) (k : Nat) (triple : Triple) : Prop :=
  ∃ j binding, j ≤ k ∧ builder.bindings[j]? = some binding ∧
    (binding.OwnTriple triple ∨
      binding.isOptional = true ∧ builder.ColumnTriple j binding triple)

/-- The group of a binding and the blocks before it hold what is there for its
left join, and only groups of bindings hold conditions. -/
structure Layered (builder : Builder) : Prop where
  upTo : ∀ {k : Nat} {binding : Binding} {position : Nat},
    builder.bindings[k]? = some binding → binding.group = some position →
    ∀ triple, triple ∈ triplesUpTo builder.blocks (position + 1) ↔ builder.Offers k triple
  conditions : ∀ {position : Nat} {group : OptionalGroup},
    builder.blocks[position]? = some (.optional group) → group.filters ≠ [] →
    ∃ (k : Nat) (binding : Binding), builder.bindings[k]? = some binding ∧
      binding.group = some position

/-! ## Binding tables -/

/-- Tables have been bound and nothing else has been done to the blocks. -/
structure Opened (builder : Builder) : Prop where
  noColumns : builder.columnIndex = []
  noFilters : ∀ {position : Nat} {group : OptionalGroup},
    builder.blocks[position]? = some (.optional group) → group.filters = []
  /-- The blocks hold the own triples of the tables. -/
  whole : ∀ triple, triple ∈ builder.blocks.flatMap Block.allTriples ↔
    ∃ (j : Nat) (binding : Binding), builder.bindings[j]? = some binding ∧
      binding.OwnTriple triple

theorem Opened.not_columnTriple {builder : Builder} (opened : Opened builder) {k : Nat}
    {binding : Binding} {triple : Triple} : ¬ builder.ColumnTriple k binding triple := by
  rintro ⟨position, column, registered, _, _⟩
  simp [registered?, opened.noColumns] at registered

/-- Before a column is registered, own triples are all there is. -/
theorem Opened.offers_iff {builder : Builder} (opened : Opened builder) {k : Nat}
    {triple : Triple} :
    builder.Offers k triple ↔
      ∃ j binding, j ≤ k ∧ builder.bindings[j]? = some binding ∧ binding.OwnTriple triple := by
  constructor
  · rintro ⟨j, binding, before, bound, own | ⟨_, column⟩⟩
    · exact ⟨j, binding, before, bound, own⟩
    · exact absurd column opened.not_columnTriple
  · rintro ⟨j, binding, before, bound, own⟩
    exact ⟨j, binding, before, bound, .inl own⟩

/-- A group that stands among the blocks after a required triple stood there
before. -/
theorem group_of_pushRequired {blocks : List Block} {triple : Triple} {position : Nat}
    {group : OptionalGroup}
    (found : (pushRequired blocks triple)[position]? = some (.optional group)) :
    blocks[position]? = some (.optional group) := by
  rcases pushRequired_eq blocks triple with pushed | ⟨front, triples, split, pushed⟩
  · rw [pushed] at found
    rcases getElem?_concat found with old | ⟨_, isNew⟩
    · exact old
    · cases isNew
  · rw [pushed] at found
    rcases getElem?_concat found with old | ⟨_, isNew⟩
    · rw [split]
      exact getElem?_of_concat old _
    · cases isNew

theorem group_of_foldl_pushRequired {triples : List Triple} {blocks : List Block} {position : Nat}
    {group : OptionalGroup}
    (found : (triples.foldl pushRequired blocks)[position]? = some (.optional group)) :
    blocks[position]? = some (.optional group) := by
  induction triples generalizing blocks with
  | nil => exact found
  | cons triple rest ih => exact group_of_pushRequired (ih found)

theorem Opened.table {builder next : Builder} (opened : Opened builder)
    (binds : Binds builder next) : Opened next := by
  rcases binds with @⟨tableName, table, tableAlias, optional, triples, _, _, filled⟩
  have isOwn : ∀ triple, (builder.nextBinding table tableAlias optional).OwnTriple triple ↔
      triple ∈ triples := by
    intro triple
    constructor
    · rintro ⟨others, filled', member⟩
      have same : Except.ok others = Except.ok triples := filled'.symm.trans filled
      cases same
      exact member
    · intro member
      exact ⟨triples, filled, member⟩
  constructor
  · exact opened.noColumns
  · intro position group found
    cases optional with
    | true =>
        rcases getElem?_concat found with old | ⟨_, isNew⟩
        · exact opened.noFilters old
        · cases isNew
          rfl
    | false => exact opened.noFilters (group_of_foldl_pushRequired found)
  · intro triple
    simp only [withTable]
    rw [flatMap_allTriples_blocksWithTable, List.mem_append, opened.whole]
    constructor
    · rintro (⟨j, binding, bound, own⟩ | member)
      · exact ⟨j, binding, getElem?_of_concat bound _, own⟩
      · exact ⟨builder.bindings.length, _, by simp, (isOwn triple).mpr member⟩
    · rintro ⟨j, binding, bound, own⟩
      rcases getElem?_concat bound with old | ⟨_, rfl⟩
      · exact .inl ⟨j, binding, old, own⟩
      · exact .inr ((isOwn triple).mp own)

/-- Binding a table keeps what the groups before it see, and its own group
sees everything. -/
theorem Layered.table {builder next : Builder} (layered : Layered builder) (opened : Opened builder)
    (consistent : Consistent builder) (binds : Binds builder next) : Layered next := by
  have openedNext := opened.table binds
  have consistentNext := consistent.table binds
  constructor
  · intro k binding position bound grouped triple
    rw [openedNext.offers_iff]
    rcases binds with @⟨tableName, table, tableAlias, optional, triples, _, _, filled⟩
    rcases getElem?_concat bound with old | ⟨rfl, rfl⟩
    · have same : triplesUpTo (builder.blocksWithTable optional triples) (position + 1) =
          triplesUpTo builder.blocks (position + 1) := by
        rw [triplesUpTo, take_blocksWithTable (consistent.groups old grouped)]
        rfl
      simp only [withTable]
      rw [same, layered.upTo old grouped, opened.offers_iff]
      have inside := (List.getElem?_eq_some_iff.mp old).1
      constructor
      · rintro ⟨j, other, before, isOther, own⟩
        exact ⟨j, other, before, getElem?_of_concat isOther _, own⟩
      · rintro ⟨j, other, before, isOther, own⟩
        rcases getElem?_concat isOther with isOld | ⟨rfl, _⟩
        · exact ⟨j, other, before, isOld, own⟩
        · omega
    · -- The group of the new binding is the last block.
      cases optional with
      | false => simp [nextBinding] at grouped
      | true =>
          have isLast : builder.blocks.length = position := by
            simpa [nextBinding] using grouped
          subst position
          have everything : triplesUpTo
              (builder.withTable table tableAlias true triples).blocks
                (builder.blocks.length + 1) =
              (builder.withTable table tableAlias true triples).blocks.flatMap
                Block.allTriples := by
            rw [triplesUpTo, List.take_of_length_le (by simp [withTable, blocksWithTable])]
          rw [everything, openedNext.whole]
          constructor
          · rintro ⟨j, other, isOther, own⟩
            have inside := (List.getElem?_eq_some_iff.mp isOther).1
            simp only [withTable, List.length_append, List.length_singleton] at inside
            exact ⟨j, other, by omega, isOther, own⟩
          · rintro ⟨j, other, _, isOther, own⟩
            exact ⟨j, other, isOther, own⟩
  · intro position group found filters
    exact absurd (openedNext.noFilters found) filters

/-! ## Registering columns -/

theorem Consistent.isSome_registered?_iff {builder : Builder} (consistent : Consistent builder)
    {place : Nat × Nat} :
    (builder.registered? place).isSome ↔ place ∈ builder.columnIndex.map Prod.fst := by
  rw [← not_iff_not, ← consistent.registered?_eq_none_iff, Option.not_isSome_iff_eq_none]

/-- Groups stand in the order of their bindings. -/
theorem Consistent.group_lt_succ_iff {builder : Builder} (consistent : Consistent builder)
    {j k : Nat} {first second : Binding} {p q : Nat} (isFirst : builder.bindings[j]? = some first)
    (isSecond : builder.bindings[k]? = some second) (firstGroup : first.group = some p)
    (secondGroup : second.group = some q) : p < q + 1 ↔ j ≤ k := by
  rcases Nat.lt_trichotomy j k with less | same | more
  · have before := consistent.ordered less isFirst isSecond firstGroup secondGroup
    omega
  · subst same
    rw [isFirst] at isSecond
    cases isSecond
    rw [firstGroup] at secondGroup
    cases secondGroup
    simp
  · have behind := consistent.ordered more isSecond isFirst secondGroup firstGroup
    omega

section Column

variable {builder : Builder} {place : Nat × Nat} {optional : Bool} {binding : Binding}
  {column : Column} {added : Triple} {blocks : List Block} {inGroup : Bool}

/-- Registering a column makes its triple available to the left joins behind
its table, if that is left-joined. -/
theorem offers_withColumn (consistent : Consistent builder)
    (fresh : builder.registered? place = none)
    (bound : builder.bindings[place.1]? = some binding)
    (declared : binding.table.columns[place.2]? = some column)
    (filled : columnTriple binding column (binding.columnVariable column) = .ok added)
    (placed : builder.placeColumn binding column.nullable optional added = .ok (blocks, inGroup))
    {k : Nat} {triple : Triple} :
    (builder.withColumn place (mention binding column inGroup) blocks).Offers k triple ↔
      builder.Offers k triple ∨
        place.1 ≤ k ∧ binding.isOptional = true ∧ triple = added := by
  have consistentNext := consistent.column (.intro fresh bound declared filled placed)
  have registered : ∀ other,
      ((builder.withColumn place (mention binding column inGroup) blocks).registered? other).isSome
        ↔ (builder.registered? other).isSome ∨ other = place := by
    intro other
    rw [consistentNext.isSome_registered?_iff, consistent.isSome_registered?_iff]
    simp [withColumn]
  constructor
  · rintro ⟨j, other, before, isOther, own | ⟨isOptional, position, known, isSome, isKnown, fills⟩⟩
    · exact .inl ⟨j, other, before, isOther, .inl own⟩
    · rcases (registered (j, position)).mp isSome with old | rfl
      · exact .inl ⟨j, other, before, isOther, .inr ⟨isOptional, position, known, old, isKnown,
          fills⟩⟩
      · have sameBinding : some other = some binding := isOther.symm.trans bound
        cases sameBinding
        have sameColumn : some known = some column := isKnown.symm.trans declared
        cases sameColumn
        have sameTriple : Except.ok triple = Except.ok added := fills.symm.trans filled
        cases sameTriple
        exact .inr ⟨before, isOptional, rfl⟩
  · rintro (⟨j, other, before, isOther, own | ⟨isOptional, position, known, isSome, isKnown,
      fills⟩⟩ | ⟨before, isOptional, rfl⟩)
    · exact ⟨j, other, before, isOther, .inl own⟩
    · exact ⟨j, other, before, isOther, .inr ⟨isOptional, position, known,
        (registered _).mpr (.inl isSome), isKnown, fills⟩⟩
    · exact ⟨place.1, binding, before, bound, .inr ⟨isOptional, place.2, column,
        (registered _).mpr (.inr rfl), declared, filled⟩⟩

/-- The triple of a column comes before a group if its binding is left-joined
and comes no later; otherwise it stands behind all groups. -/
theorem mem_triplesUpTo_placeColumn (consistent : Consistent builder)
    (bound : builder.bindings[place.1]? = some binding) {nullable : Bool}
    (placed : builder.placeColumn binding nullable optional added = .ok (blocks, inGroup))
    {k : Nat} {joined : Binding} {position : Nat} (isJoined : builder.bindings[k]? = some joined)
    (grouped : joined.group = some position) {triple : Triple} :
    triple ∈ triplesUpTo blocks (position + 1) ↔
      triple ∈ triplesUpTo builder.blocks (position + 1) ∨
        place.1 ≤ k ∧ binding.isOptional = true ∧ triple = added := by
  have isGroup := consistent.groups isJoined grouped
  rcases placeColumn_spec placed with ⟨changed, group, inside, found, rfl⟩ | ⟨outside, rfl | rfl⟩
  · have isOptional : binding.isOptional = true := by
      simp [Binding.isOptional, inside]
    rw [mem_triplesUpTo_set found (mem_allTriples_placeInGroup nullable added group),
      consistent.group_lt_succ_iff bound isJoined inside grouped]
    simp [isOptional]
  · rw [triplesUpTo, List.take_append_of_le_length isGroup.lt]
    simp [Binding.isOptional, outside, triplesUpTo]
  · rw [triplesUpTo, take_pushRequired isGroup]
    simp [Binding.isOptional, outside, triplesUpTo]

/-- Placing a column adds no condition. -/
theorem filters_of_placeColumn {nullable : Bool}
    (placed : builder.placeColumn binding nullable optional added = .ok (blocks, inGroup))
    {position : Nat} {group : OptionalGroup}
    (found : blocks[position]? = some (.optional group)) (filters : group.filters ≠ []) :
    ∃ old, builder.blocks[position]? = some (.optional old) ∧ old.filters ≠ [] := by
  rcases placeColumn_spec placed with ⟨changed, old, _, isOld, rfl⟩ | ⟨_, rfl | rfl⟩
  · by_cases same : changed = position
    · subst same
      rw [List.getElem?_set_self (List.getElem?_eq_some_iff.mp isOld).1] at found
      cases found
      refine ⟨old, isOld, ?_⟩
      cases nullable with
      | true => exact filters
      | false => exact filters
    · rw [List.getElem?_set_ne same] at found
      exact ⟨group, found, filters⟩
  · rcases getElem?_concat found with isOld | ⟨_, isNew⟩
    · exact ⟨group, isOld, filters⟩
    · cases isNew
      exact absurd rfl filters
  · exact ⟨group, group_of_pushRequired found, filters⟩

end Column

theorem Layered.column {builder next : Builder} (layered : Layered builder)
    (consistent : Consistent builder) (registers : Registers builder next) : Layered next := by
  rcases registers with @⟨place, optional, binding, column, added, blocks, inGroup, fresh, bound,
    declared, filled, placed⟩
  constructor
  · intro k joined position isJoined grouped triple
    rw [offers_withColumn consistent fresh bound declared filled placed,
      ← layered.upTo isJoined grouped]
    exact mem_triplesUpTo_placeColumn consistent bound placed isJoined grouped
  · intro position group found filters
    obtain ⟨old, isOld, oldFilters⟩ := filters_of_placeColumn placed found filters
    exact layered.conditions isOld oldFilters

/-- What comes after the tables keeps what the groups see. -/
theorem Layered.fill {builder next : Builder} (layered : Layered builder)
    (consistent : Consistent builder) (fills : Fills builder next) : Layered next := by
  cases fills with
  | column registers => exact layered.column consistent registers
  | projection projection free => exact ⟨layered.upTo, layered.conditions⟩
  | @condition id binding changed group condition bound inside found =>
      have isGroup := isGroup_of_groupAt found
      constructor
      · intro k joined position isJoined grouped triple
        have same : ∀ triple, triple ∈ (Block.optional (group.withFilter condition)).allTriples ↔
            triple ∈ (Block.optional group).allTriples ∨ triple ∈ [] := by
          intro triple
          simp [Block.allTriples, OptionalGroup.allTriples, OptionalGroup.withFilter]
        rw [withGroupFilter, mem_triplesUpTo_set isGroup same]
        simp only [List.not_mem_nil, and_false, or_false]
        exact layered.upTo isJoined grouped triple
      · intro position other isOther filters
        by_cases same : changed = position
        · subst same
          exact ⟨id, binding, bound, inside⟩
        · rw [withGroupFilter, List.getElem?_set_ne same] at isOther
          exact layered.conditions isOther filters
  | outside => exact ⟨layered.upTo, layered.conditions⟩

/-! ## Two phases -/

/-- After the tables, every left join sees what it should. -/
theorem layered_of_binds {catalog : Catalog} {defaultSchema : Option String} {useService : Bool}
    {middle : Builder}
    (binding : Relation.ReflTransGen Binds { catalog, defaultSchema, useService } middle) :
    Consistent middle ∧ Opened middle ∧ Layered middle := by
  induction binding with
  | refl => exact ⟨consistent_empty _ _ _, ⟨rfl, by simp, by simp⟩, by simp, by simp⟩
  | tail _ binds ih =>
      obtain ⟨consistent, opened, layered⟩ := ih
      exact ⟨consistent.table binds, opened.table binds, layered.table opened consistent binds⟩

theorem layered_of_fills {middle last : Builder} (consistent : Consistent middle)
    (layered : Layered middle) (filling : Relation.ReflTransGen Fills middle last) :
    Consistent last ∧ Layered last := by
  induction filling with
  | refl => exact ⟨consistent, layered⟩
  | tail _ fills ih =>
      obtain ⟨consistent, layered⟩ := ih
      exact ⟨consistent.fill fills, layered.fill consistent fills⟩

end Builder

end TripleTables
