import TripleTables.Proofs.Builder.Change

/-!
# Consistent builders

The parts of a builder refer to each other by position: a binding to its
optional group among the blocks, a place of a column to what is kept of it.
`Consistent` says that all these references hit what they mean, and that the
display names are those of the result columns, each once.  Every change keeps
it, so every reachable builder is consistent.
-/

namespace TripleTables.Builder

open TripleTables.Graph

/-! ## Optional groups among the blocks -/

/-- An optional group stands at a position. -/
def IsGroup (blocks : List Block) (position : Nat) : Prop :=
  ∃ group, blocks[position]? = some (.optional group)

theorem IsGroup.lt {blocks : List Block} {position : Nat} (isGroup : IsGroup blocks position) :
    position < blocks.length := by
  obtain ⟨group, found⟩ := isGroup
  exact (List.getElem?_eq_some_iff.mp found).1

theorem isGroup_of_groupAt {builder : Builder} {position : Nat} {group : OptionalGroup}
    (found : builder.groupAt position = .ok group) :
    builder.blocks[position]? = some (.optional group) := by
  unfold groupAt at found
  split at found
  · rename_i found'
    cases found
    exact found'
  · contradiction

theorem IsGroup.append {blocks : List Block} {position : Nat} (isGroup : IsGroup blocks position)
    (more : List Block) : IsGroup (blocks ++ more) position := by
  have inside := isGroup.lt
  obtain ⟨group, found⟩ := isGroup
  exact ⟨group, by rw [List.getElem?_append_left inside, found]⟩

theorem IsGroup.set {blocks : List Block} {position : Nat} (isGroup : IsGroup blocks position)
    (changed : Nat) (group : OptionalGroup) :
    IsGroup (blocks.set changed (.optional group)) position := by
  by_cases same : changed = position
  · subst changed
    exact ⟨group, List.getElem?_set_self isGroup.lt⟩
  · obtain ⟨old, found⟩ := isGroup
    exact ⟨old, by rw [List.getElem?_set_ne same, found]⟩

/-- A required triple is put at the end of the last block, or in a new one. -/
theorem pushRequired_eq (blocks : List Block) (triple : Triple) :
    pushRequired blocks triple = blocks ++ [.required [triple]] ∨
      ∃ front triples, blocks = front ++ [.required triples] ∧
        pushRequired blocks triple = front ++ [.required (triples ++ [triple])] := by
  fun_induction pushRequired blocks triple with
  | case1 triple => exact .inl rfl
  | case2 triples triple => exact .inr ⟨[], triples, rfl, rfl⟩
  | case3 block rest triple last ih =>
      rcases ih with pushed | ⟨front, triples, split, pushed⟩
      · exact .inl (by rw [pushed]; rfl)
      · exact .inr ⟨block :: front, triples, by rw [split]; rfl, by rw [pushed]; rfl⟩

/-- A required triple leaves everything up to an optional group alone. -/
theorem take_pushRequired {blocks : List Block} {position : Nat}
    (isGroup : IsGroup blocks position) (triple : Triple) :
    (pushRequired blocks triple).take (position + 1) = blocks.take (position + 1) := by
  have inside := isGroup.lt
  rcases pushRequired_eq blocks triple with pushed | ⟨front, triples, split, pushed⟩
  · rw [pushed, List.take_append_of_le_length inside]
  · have before : position + 1 ≤ front.length := by
      -- The last block is no group, so the group stands before it.
      obtain ⟨group, found⟩ := isGroup
      subst blocks
      rw [List.length_append, List.length_singleton] at inside
      by_contra late
      have last : position = front.length := by omega
      subst position
      simp at found
    rw [pushed, split, List.take_append_of_le_length before, List.take_append_of_le_length before]

theorem getElem?_eq_of_take {blocks others : List Block} {position : Nat}
    (same : others.take (position + 1) = blocks.take (position + 1)) :
    others[position]? = blocks[position]? := by
  rw [← List.getElem?_take_of_succ, same, List.getElem?_take_of_succ]

theorem IsGroup.of_take {blocks others : List Block} {position : Nat}
    (isGroup : IsGroup blocks position)
    (same : others.take (position + 1) = blocks.take (position + 1)) :
    IsGroup others position := by
  obtain ⟨group, found⟩ := isGroup
  exact ⟨group, (getElem?_eq_of_take same).trans found⟩

theorem take_foldl_pushRequired {blocks : List Block} {position : Nat}
    (isGroup : IsGroup blocks position) (triples : List Triple) :
    (triples.foldl pushRequired blocks).take (position + 1) = blocks.take (position + 1) := by
  induction triples generalizing blocks with
  | nil => rfl
  | cons triple rest ih =>
      have same := take_pushRequired isGroup triple
      rw [List.foldl_cons, ih (isGroup.of_take same), same]

/-- Binding a table leaves everything up to an optional group alone. -/
theorem take_blocksWithTable {builder : Builder} {position : Nat}
    (isGroup : IsGroup builder.blocks position) (optional : Bool) (triples : List Triple) :
    (builder.blocksWithTable optional triples).take (position + 1) =
      builder.blocks.take (position + 1) := by
  unfold blocksWithTable
  split
  · exact List.take_append_of_le_length isGroup.lt
  · exact take_foldl_pushRequired isGroup triples

/-- Where the triple of a column goes: into the group of its binding, into a
group of its own, or to the required triples at the end. -/
theorem placeColumn_cases {builder : Builder} {binding : Binding} {nullable optional : Bool}
    {triple : Triple} {blocks : List Block} {inGroup : Bool}
    (placed : builder.placeColumn binding nullable optional triple = .ok (blocks, inGroup)) :
    (∃ position group, binding.group = some position ∧
        builder.blocks[position]? = some (.optional group) ∧
        blocks = builder.blocks.set position (.optional (placeInGroup nullable triple group)) ∧
        inGroup = true) ∨
      (binding.group = none ∧ (nullable || optional) = true ∧
        blocks = builder.blocks ++ [.optional (.single triple)] ∧ inGroup = true) ∨
      (binding.group = none ∧ (nullable || optional) = false ∧
        blocks = pushRequired builder.blocks triple ∧ inGroup = false) := by
  unfold placeColumn at placed
  split at placed
  · rename_i position grouped
    cases found : builder.groupAt position with
    | error error => simp [found, bind, Except.bind] at placed
    | ok group =>
        simp only [found, bind, Except.bind] at placed
        cases placed
        exact .inl ⟨position, group, grouped, isGroup_of_groupAt found, rfl, rfl⟩
  · rename_i ungrouped
    split at placed
    · rename_i apart
      cases placed
      exact .inr (.inl ⟨ungrouped, apart, rfl, rfl⟩)
    · rename_i together
      cases placed
      exact .inr (.inr ⟨ungrouped, by simpa using together, rfl, rfl⟩)

/-- The triple of a column goes into the group of its binding, or to the end of
the blocks. -/
theorem placeColumn_spec {builder : Builder} {binding : Binding} {nullable optional : Bool}
    {triple : Triple} {blocks : List Block} {inGroup : Bool}
    (placed : builder.placeColumn binding nullable optional triple = .ok (blocks, inGroup)) :
    (∃ position group, binding.group = some position ∧
        builder.blocks[position]? = some (.optional group) ∧
        blocks = builder.blocks.set position (.optional (placeInGroup nullable triple group))) ∨
      binding.group = none ∧
        (blocks = builder.blocks ++ [.optional (.single triple)] ∨
          blocks = pushRequired builder.blocks triple) := by
  rcases placeColumn_cases placed with
    ⟨position, group, grouped, found, same, _⟩ | ⟨ungrouped, _, same, _⟩ | ⟨ungrouped, _, same, _⟩
  · exact .inl ⟨position, group, grouped, found, same⟩
  · exact .inr ⟨ungrouped, .inl same⟩
  · exact .inr ⟨ungrouped, .inr same⟩

/-- Placing a column keeps the optional groups. -/
theorem IsGroup.placeColumn {builder : Builder} {position : Nat}
    (isGroup : IsGroup builder.blocks position) {binding : Binding} {nullable optional : Bool}
    {triple : Triple} {blocks : List Block} {inGroup : Bool}
    (placed : builder.placeColumn binding nullable optional triple = .ok (blocks, inGroup)) :
    IsGroup blocks position := by
  rcases placeColumn_spec placed with ⟨changed, group, _, _, rfl⟩ | ⟨_, rfl | rfl⟩
  · exact isGroup.set changed _
  · exact isGroup.append _
  · exact isGroup.of_take (take_pushRequired isGroup triple)

/-! ## The invariant -/

/-- What is kept at a position belongs to the column at a place, whose template
could be filled. -/
def Mentions (builder : Builder) (place : Nat × Nat) (position : Nat) : Prop :=
  ∃ binding column triple inGroup,
    builder.bindings[place.1]? = some binding ∧
    binding.table.columns[place.2]? = some column ∧
    columnTriple binding column (binding.columnVariable column) = .ok triple ∧
    builder.columns[position]? = some (mention binding column inGroup)

/-- The references between the parts of a builder hit what they mean. -/
structure Consistent (builder : Builder) : Prop where
  /-- The id of a binding is its position. -/
  ids : ∀ {i : Nat} {binding : Binding}, builder.bindings[i]? = some binding → binding.id = i
  /-- The group of a binding stands among the blocks. -/
  groups : ∀ {i : Nat} {binding : Binding} {position : Nat},
    builder.bindings[i]? = some binding → binding.group = some position →
      IsGroup builder.blocks position
  /-- The groups stand in the order of the bindings. -/
  ordered : ∀ {i j : Nat} {first second : Binding} {p q : Nat}, i < j →
    builder.bindings[i]? = some first → builder.bindings[j]? = some second →
    first.group = some p → second.group = some q → p < q
  /-- Every position of a kept column is referred to once. -/
  positions : builder.columnIndex.map Prod.snd = List.range builder.columns.length
  /-- Every place refers to one position. -/
  places : (builder.columnIndex.map Prod.fst).Nodup
  mentioned : ∀ {place position}, (place, position) ∈ builder.columnIndex →
    builder.Mentions place position
  shown : builder.displayNames = builder.projections.map Projection.displayName
  distinctNames : builder.displayNames.Nodup

/-- An entry of a list with one more at the end. -/
theorem getElem?_concat {α : Type} {values : List α} {last value : α} {i : Nat}
    (found : (values ++ [last])[i]? = some value) :
    values[i]? = some value ∨ i = values.length ∧ last = value := by
  rw [List.getElem?_append] at found
  split at found
  · exact .inl found
  · have inside : i - values.length = 0 := by
      have bound := (List.getElem?_eq_some_iff.mp found).1
      simpa using bound
    rw [inside] at found
    exact .inr ⟨by omega, by simpa using found⟩

theorem getElem?_of_concat {α : Type} {values : List α} {value : α} {i : Nat}
    (found : values[i]? = some value) (last : α) : (values ++ [last])[i]? = some value := by
  rw [List.getElem?_append_left (List.getElem?_eq_some_iff.mp found).1, found]

theorem consistent_empty (catalog : Catalog) (defaultSchema : Option String)
    (useService : Bool) : Consistent { catalog, defaultSchema, useService } where
  ids := by simp
  groups := by simp
  ordered := by simp
  positions := rfl
  places := by simp
  mentioned := by simp
  shown := rfl
  distinctNames := by simp

namespace Consistent

variable {builder next : Builder}

theorem table (consistent : Consistent builder) (binds : Binds builder next) :
    Consistent next := by
  rcases binds with @⟨tableName, table, tableAlias, optional, triples, _, _, _⟩
  have kept : ∀ {position}, IsGroup builder.blocks position →
      IsGroup (builder.blocksWithTable optional triples) position :=
    fun isGroup => isGroup.of_take (take_blocksWithTable isGroup optional triples)
  have newGroup : ∀ {position},
      (builder.nextBinding table tableAlias optional).group = some position →
        position = builder.blocks.length ∧
          IsGroup (builder.blocksWithTable optional triples) position := by
    intro position grouped
    cases optional with
    | false => simp [nextBinding] at grouped
    | true =>
        have same : builder.blocks.length = position := by
          simpa [nextBinding] using grouped
        subst position
        exact ⟨rfl, { triples }, by simp [blocksWithTable]⟩
  refine ⟨?_, ?_, ?_, consistent.positions, consistent.places, ?_, consistent.shown,
    consistent.distinctNames⟩
  · intro i binding found
    rcases getElem?_concat found with old | ⟨rfl, rfl⟩
    · exact consistent.ids old
    · rfl
  · intro i binding position found grouped
    rcases getElem?_concat found with old | ⟨rfl, rfl⟩
    · exact kept (consistent.groups old grouped)
    · exact (newGroup grouped).2
  · intro i j first second p q less firstFound secondFound firstGroup secondGroup
    rcases getElem?_concat secondFound with secondOld | ⟨rfl, rfl⟩
    · rcases getElem?_concat firstFound with firstOld | ⟨rfl, rfl⟩
      · exact consistent.ordered less firstOld secondOld firstGroup secondGroup
      · have bound := (List.getElem?_eq_some_iff.mp secondOld).1
        omega
    · rcases getElem?_concat firstFound with firstOld | ⟨rfl, rfl⟩
      · rw [(newGroup secondGroup).1]
        exact (consistent.groups firstOld firstGroup).lt
      · omega
  · intro place position indexed
    obtain ⟨binding, column, triple, inGroup, bound, declared, filled, found⟩ :=
      consistent.mentioned indexed
    exact ⟨binding, column, triple, inGroup, getElem?_of_concat bound _, declared, filled, found⟩

/-- The index gives for a place what it holds for it. -/
theorem lookup_eq_some_iff (consistent : Consistent builder) {place : Nat × Nat}
    {position : Nat} :
    builder.columnIndex.lookup place = some position ↔
      (place, position) ∈ builder.columnIndex := by
  constructor
  · intro looked
    obtain ⟨front, rest, split, _⟩ := List.lookup_eq_some_iff.mp looked
    simp [split]
  · intro indexed
    obtain ⟨front, rest, split⟩ := List.append_of_mem indexed
    refine List.lookup_eq_some_iff.mpr ⟨front, rest, split, ?_⟩
    have places := consistent.places
    rw [split, List.map_append, List.map_cons, List.nodup_append] at places
    intro entry member
    have apart := places.2.2 entry.1 (List.mem_map_of_mem member) place (by simp)
    simpa using apart.symm

/-- A place is registered exactly when the index holds it. -/
theorem registered?_eq_some_iff (consistent : Consistent builder) {place : Nat × Nat}
    {column : MentionedColumn} :
    builder.registered? place = some column ↔
      ∃ position, (place, position) ∈ builder.columnIndex ∧
        builder.columns[position]? = some column := by
  simp only [registered?, Option.bind_eq_bind, Option.bind_eq_some_iff,
    consistent.lookup_eq_some_iff]

/-- A registered column is what is kept of a column of a binding. -/
theorem exists_of_registered? (consistent : Consistent builder)
    {place : Nat × Nat} {column : MentionedColumn}
    (found : builder.registered? place = some column) :
    ∃ binding declared inGroup, builder.bindings[place.1]? = some binding ∧
      binding.table.columns[place.2]? = some declared ∧
      column = mention binding declared inGroup := by
  obtain ⟨position, indexed, kept⟩ := consistent.registered?_eq_some_iff.mp found
  obtain ⟨binding, declared, _, inGroup, bound, inTable, _, known⟩ := consistent.mentioned indexed
  exact ⟨binding, declared, inGroup, bound, inTable, Option.some.inj (kept.symm.trans known)⟩

theorem registered?_eq_none_iff (consistent : Consistent builder) {place : Nat × Nat} :
    builder.registered? place = none ↔ place ∉ builder.columnIndex.map Prod.fst := by
  rw [← not_iff_not, not_not, ← ne_eq, ← Option.isSome_iff_ne_none, Option.isSome_iff_exists]
  constructor
  · rintro ⟨column, found⟩
    obtain ⟨position, indexed, _⟩ := consistent.registered?_eq_some_iff.mp found
    exact List.mem_map_of_mem indexed
  · intro member
    obtain ⟨⟨_, position⟩, indexed, rfl⟩ := List.mem_map.mp member
    obtain ⟨binding, column, _, inGroup, _, _, _, found⟩ := consistent.mentioned indexed
    exact ⟨mention binding column inGroup,
      consistent.registered?_eq_some_iff.mpr ⟨position, indexed, found⟩⟩

theorem column (consistent : Consistent builder) (registers : Registers builder next) :
    Consistent next := by
  rcases registers with @⟨place, optional, binding, column, triple, blocks, inGroup, fresh,
    bound, declared, filled, placed⟩
  refine ⟨consistent.ids, ?_, consistent.ordered, ?_, ?_, ?_, consistent.shown,
    consistent.distinctNames⟩
  · intro i other position found grouped
    exact (consistent.groups found grouped).placeColumn placed
  · simp [withColumn, consistent.positions, List.range_succ]
  · have new := consistent.registered?_eq_none_iff.mp fresh
    simp only [withColumn, List.map_append, List.map_cons, List.map_nil]
    rw [List.nodup_append]
    refine ⟨consistent.places, by simp, ?_⟩
    intro old member last isLast same
    have lastPlace : last = place := by simpa using isLast
    exact new (by rwa [same, lastPlace] at member)
  · intro other position indexed
    rcases List.mem_append.mp indexed with old | new
    · obtain ⟨binding', column', triple', inGroup', bound', declared', filled', found'⟩ :=
        consistent.mentioned old
      exact ⟨binding', column', triple', inGroup', bound', declared', filled',
        getElem?_of_concat found' _⟩
    · have same : other = place ∧ position = builder.columns.length := by simpa using new
      obtain ⟨rfl, rfl⟩ := same
      exact ⟨binding, column, triple, inGroup, bound, declared, filled, by simp [withColumn]⟩

theorem fill (consistent : Consistent builder) (fills : Fills builder next) :
    Consistent next := by
  cases fills with
  | column registers => exact consistent.column registers
  | projection projection free =>
      refine ⟨consistent.ids, consistent.groups, consistent.ordered, consistent.positions,
        consistent.places, consistent.mentioned, ?_, ?_⟩
      · simp [withProjection, consistent.shown]
      · simp only [withProjection]
        rw [List.nodup_append]
        refine ⟨consistent.distinctNames, by simp, ?_⟩
        intro old member last isLast same
        have lastName : last = projection.displayName := by simpa using isLast
        exact free (by rwa [same, lastName] at member)
  | condition condition bound grouped found =>
      exact ⟨consistent.ids, fun bound grouped => (consistent.groups bound grouped).set _ _,
        consistent.ordered, consistent.positions, consistent.places, consistent.mentioned,
        consistent.shown, consistent.distinctNames⟩
  | outside binds filters distinct groupBy having orderBy limit offset =>
      exact ⟨consistent.ids, consistent.groups, consistent.ordered, consistent.positions,
        consistent.places, consistent.mentioned, consistent.shown, consistent.distinctNames⟩

theorem change (consistent : Consistent builder) (change : Change builder next) :
    Consistent next := by
  cases change with
  | table binds => exact consistent.table binds
  | fill fills => exact consistent.fill fills

end Consistent

/-- Every reachable builder is consistent. -/
theorem Reachable.consistent {catalog : Catalog} {builder : Builder}
    (reachable : Reachable catalog builder) : Consistent builder :=
  reachable.keeps (consistent_empty catalog) fun _ _ change consistent => consistent.change change

end TripleTables.Builder
