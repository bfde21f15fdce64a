import TripleTables.Proofs.Builder.Consistent
import TripleTables.Proofs.Compile.Outcome
import TripleTables.Proofs.Query.Blanking

/-!
# Building queries without their texts

A builder keeps expressions and does not look into them, but for aggregates.  So
an operation on a builder without texts does what the operation does on the
builder itself, and gives the same value or fails with the same error
(`reflects_blanked`).  What it adds is clean where the builder and the expression are.
-/

namespace TripleTables

open TripleTables.Graph

namespace Builder

/-- The builder without the texts of its expressions. -/
def blanked (builder : Builder) : Builder :=
  { builder with
    blocks := builder.blocks.map Block.blanked
    binds := builder.binds.map fun entry => (entry.1.blanked, entry.2)
    filters := builder.filters.map Expr.blanked
    projections := builder.projections.map Projection.blanked
    groupBy := builder.groupBy.map Expr.blanked
    having := builder.having.map Expr.blanked
    orderBy := builder.orderBy.map OrderKey.blanked }

/-- All variables that can be named and all expressions are clean. -/
structure IsClean (builder : Builder) : Prop where
  columns : ∀ column ∈ builder.columns, column.var.IsClean
  shown : ∀ projection ∈ builder.projections, projection.var.IsClean
  blocks : ∀ block ∈ builder.blocks, block.IsClean
  binds : ∀ entry ∈ builder.binds, entry.1.IsClean
  filters : ∀ e ∈ builder.filters, e.IsClean
  projections : ∀ projection ∈ builder.projections, projection.IsClean
  groupBy : ∀ e ∈ builder.groupBy, e.IsClean
  having : ∀ e ∈ builder.having, e.IsClean
  orderBy : ∀ key ∈ builder.orderBy, key.expr.IsClean

/-! ## Parts of a builder -/

theorem map_blanked_pushRequired (blocks : List Block) (triple : Triple) :
    (pushRequired blocks triple).map Block.blanked =
      pushRequired (blocks.map Block.blanked) triple := by
  fun_induction pushRequired blocks triple with
  | case1 triple => rfl
  | case2 triples triple => rfl
  | case3 block rest triple last ih =>
      rw [List.map_cons, ih, List.map_cons, pushRequired.eq_3]
      intro triples isRequired isEmpty
      rw [List.map_eq_nil_iff] at isEmpty
      cases block with
      | required others => exact last others rfl isEmpty
      | optional group => cases isRequired

theorem map_blanked_blocksWithTable (builder : Builder) (optional : Bool)
    (triples : List Triple) :
    (builder.blocksWithTable optional triples).map Block.blanked =
      builder.blanked.blocksWithTable optional triples := by
  cases optional with
  | true =>
      simp only [blocksWithTable, if_true, List.map_append]
      rfl
  | false =>
      simp only [blocksWithTable, Bool.false_eq_true, if_false]
      show _ = triples.foldl pushRequired (builder.blocks.map Block.blanked)
      generalize builder.blocks = blocks
      induction triples generalizing blocks with
      | nil => rfl
      | cons triple rest ih =>
          rw [List.foldl_cons, List.foldl_cons, ih, map_blanked_pushRequired]

theorem withTable_blanked (builder : Builder) (table : Table) (tableAlias : String)
    (optional : Bool) (triples : List Triple) :
    builder.blanked.withTable table tableAlias optional triples =
      (builder.withTable table tableAlias optional triples).blanked := by
  simp only [withTable, ← map_blanked_blocksWithTable, nextBinding]
  simp [blanked]

theorem groupAt_blanked (builder : Builder) (position : Nat) :
    builder.blanked.groupAt position = (builder.groupAt position).map OptionalGroup.blanked := by
  simp only [groupAt, blanked, List.getElem?_map]
  cases builder.blocks[position]? with
  | none => rfl
  | some block => cases block <;> rfl

theorem placeColumn_blanked (builder : Builder) (binding : Binding) (nullable optional : Bool)
    (triple : Triple) :
    builder.blanked.placeColumn binding nullable optional triple =
      (builder.placeColumn binding nullable optional triple).map fun placed =>
        (placed.1.map Block.blanked, placed.2) := by
  unfold placeColumn
  cases binding.group with
  | some position =>
      dsimp only
      rw [groupAt_blanked]
      cases builder.groupAt position with
      | error error => rfl
      | ok group =>
          have placed : Block.optional (placeInGroup nullable triple group.blanked) =
              (Block.optional (placeInGroup nullable triple group)).blanked := by
            cases nullable <;> rfl
          show Except.ok ((builder.blocks.map Block.blanked).set position _, true) =
            Except.ok ((builder.blocks.set position _).map Block.blanked, true)
          rw [placed, List.map_set]
  | none =>
      dsimp only
      split
      · show Except.ok (builder.blocks.map Block.blanked ++ _, true) =
          Except.ok ((builder.blocks ++ _).map Block.blanked, true)
        rw [List.map_append]
        rfl
      · show Except.ok (pushRequired (builder.blocks.map Block.blanked) triple, false) =
          Except.ok ((pushRequired builder.blocks triple).map Block.blanked, false)
        rw [map_blanked_pushRequired]

theorem withProjection_blanked (builder : Builder) (projection : Projection) :
    builder.blanked.withProjection projection.blanked =
      (builder.withProjection projection).blanked := by
  simp [withProjection, blanked, Projection.blanked]

/-- A result column without an expression has no texts. -/
theorem withProjection_blanked_of_none (builder : Builder) {projection : Projection}
    (plain : projection.expression = none) :
    builder.blanked.withProjection projection = (builder.withProjection projection).blanked := by
  have same : projection.blanked = projection := by
    cases projection
    cases plain
    rfl
  rw [← withProjection_blanked, same]

theorem projectionVariable?_blanked (builder : Builder) (displayName : String) :
    builder.blanked.projectionVariable? displayName = builder.projectionVariable? displayName := by
  simp only [projectionVariable?, blanked, List.find?_map, Option.map_map]
  rfl

/-! ## Operations -/

/-- Texts are neither read nor changed by what changes tables, columns and result
columns without expressions. -/
theorem reflects_blanked : Reflects blanked (List.map Block.blanked) where
  resolveTable _ _ := rfl
  bindings _ := rfl
  columns _ := rfl
  columnIndex _ := rfl
  displayNames _ := rfl
  nextBinding _ _ _ _ := by simp [nextBinding, blanked]
  withTable := withTable_blanked
  placeColumn := placeColumn_blanked
  withColumn _ _ _ _ := rfl
  withProjection builder _ plain := builder.withProjection_blanked_of_none plain

theorem isClean_pushRequired {blocks : List Block} (clean : ∀ block ∈ blocks, block.IsClean)
    (triple : Triple) : ∀ block ∈ pushRequired blocks triple, block.IsClean := by
  rcases pushRequired_eq blocks triple with pushed | ⟨front, triples, rfl, pushed⟩
  · rw [pushed, List.forall_mem_append]
    exact ⟨clean, List.forall_mem_singleton.mpr trivial⟩
  · rw [List.forall_mem_append] at clean
    rw [pushed, List.forall_mem_append]
    exact ⟨clean.1, List.forall_mem_singleton.mpr trivial⟩

theorem isClean_foldl_pushRequired {blocks : List Block} (clean : ∀ block ∈ blocks, block.IsClean)
    (triples : List Triple) : ∀ block ∈ triples.foldl pushRequired blocks, block.IsClean := by
  induction triples generalizing blocks with
  | nil => exact clean
  | cons triple rest ih => exact ih (isClean_pushRequired clean triple)

theorem isClean_set {blocks : List Block} (clean : ∀ block ∈ blocks, block.IsClean)
    {position : Nat} {group : OptionalGroup} (cleanGroup : ∀ e ∈ group.filters, e.IsClean) :
    ∀ block ∈ blocks.set position (.optional group), block.IsClean := by
  intro block member
  rcases List.mem_or_eq_of_mem_set member with old | rfl
  · exact clean block old
  · exact cleanGroup

theorem isClean_placeColumn {builder : Builder} (clean : ∀ block ∈ builder.blocks, block.IsClean)
    {binding : Binding} {nullable optional : Bool} {triple : Triple} {blocks : List Block}
    {inGroup : Bool}
    (placed : builder.placeColumn binding nullable optional triple = .ok (blocks, inGroup)) :
    ∀ block ∈ blocks, block.IsClean := by
  rcases placeColumn_spec placed with ⟨position, group, _, found, rfl⟩ | ⟨_, rfl | rfl⟩
  · refine isClean_set clean ?_
    have cleanGroup := clean _ (List.mem_of_getElem? found)
    cases nullable with
    | true => exact cleanGroup
    | false => exact cleanGroup
  · rw [List.forall_mem_append]
    exact ⟨clean, List.forall_mem_singleton.mpr (by simp [Block.IsClean, OptionalGroup.single])⟩
  · exact isClean_pushRequired clean triple

namespace IsClean

variable {builder next : Builder}

theorem empty (catalog : Catalog) (defaultSchema : Option String) (useService : Bool) :
    IsClean { catalog, defaultSchema, useService } := by
  constructor <;> simp

theorem table (clean : IsClean builder) (binds : Binds builder next) : IsClean next := by
  rcases binds with @⟨_, table, tableAlias, optional, triples, _, _, _⟩
  refine { clean with blocks := ?_ }
  cases optional with
  | true =>
      simp only [withTable, blocksWithTable, if_true]
      exact List.forall_mem_append.mpr
        ⟨clean.blocks, List.forall_mem_singleton.mpr (by simp [Block.IsClean])⟩
  | false =>
      simp only [withTable, blocksWithTable, Bool.false_eq_true, if_false]
      exact isClean_foldl_pushRequired clean.blocks triples

theorem column (clean : IsClean builder) (registers : Registers builder next) : IsClean next := by
  rcases registers with @⟨_, _, binding, column, _, _, inGroup, _, _, _, _, placed⟩
  exact { clean with
    columns := List.forall_mem_append.mpr
      ⟨clean.columns, List.forall_mem_singleton.mpr ⟨_, rfl⟩⟩
    blocks := isClean_placeColumn clean.blocks placed }

theorem projection (clean : IsClean builder) {projection : Projection}
    (cleanVar : projection.var.IsClean) (cleanProjection : projection.IsClean) :
    IsClean (builder.withProjection projection) :=
  { clean with
    shown := List.forall_mem_append.mpr ⟨clean.shown, List.forall_mem_singleton.mpr cleanVar⟩
    projections := List.forall_mem_append.mpr
      ⟨clean.projections, List.forall_mem_singleton.mpr cleanProjection⟩ }

/-- A column that is asked for has a clean variable. -/
theorem addColumn (clean : IsClean builder) {name : Name} {optional : Bool} {v : Variable}
    (ran : addColumn name optional builder = .ok v next) : IsClean next ∧ v.IsClean := by
  have registered := Run.kept_along (fun _ _ registers clean => clean.column registers)
    ((moves_addColumn name optional).of_ok ran) clean
  obtain ⟨column, member, rfl⟩ := exists_column_of_addColumn ran
  exact ⟨registered, registered.columns column member⟩

theorem addVar (clean : IsClean builder) {v : Variable} {displayName : Option String}
    (cleanVar : v.IsClean) (ran : addVar v displayName builder = .ok () next) : IsClean next := by
  obtain ⟨projection, rfl, plain, _, rfl⟩ := addVar_eq_ok ran
  exact clean.projection cleanVar (by simp [Projection.IsClean, plain])

theorem addComputed (clean : IsClean builder) {e : Expr} {displayName : String} {v : Variable}
    (cleanExpr : e.IsClean) (ran : addComputed e displayName builder = .ok v next) :
    IsClean next := by
  obtain ⟨projection, named, _, ⟨_, computed, rfl⟩ | ⟨_, plain, rfl⟩⟩ := addComputed_eq_ok ran
  · refine clean.projection ⟨_, named⟩ ?_
    simpa [Projection.IsClean, computed] using cleanExpr
  · have bound : IsClean { builder with binds := builder.binds ++ [(e, projection.var)] } :=
      { clean with
        binds := List.forall_mem_append.mpr
          ⟨clean.binds, List.forall_mem_singleton.mpr cleanExpr⟩ }
    exact bound.projection ⟨_, named⟩ (by simp [Projection.IsClean, plain])

theorem addAllColumns {pattern : Option Name} (clean : IsClean builder)
    (ran : addAllColumns pattern builder = .ok () next) : IsClean next := by
  refine keeps_addAllColumns ?_ clean ran
  intro _ _ _ _ _ clean added shown
  obtain ⟨clean, cleanVar⟩ := clean.addColumn added
  exact clean.addVar cleanVar shown

theorem addBindingFilter {id : Nat} {e : Expr} (clean : IsClean builder) (cleanExpr : e.IsClean)
    (ran : addBindingFilter id e builder = .ok () next) : IsClean next := by
  rcases addBindingFilter_eq_ok ran with ⟨_, position, group, _, _, found, rfl⟩ | rfl
  · have cleanGroup := clean.blocks _ (List.mem_of_getElem? (isGroup_of_groupAt found))
    exact { clean with
      blocks := isClean_set clean.blocks (List.forall_mem_append.mpr
        ⟨cleanGroup, List.forall_mem_singleton.mpr cleanExpr⟩) }
  · exact { clean with
      filters := List.forall_mem_append.mpr
        ⟨clean.filters, List.forall_mem_singleton.mpr cleanExpr⟩ }

end IsClean

/-! ## Builders that differ in texts -/

/-- The builders are clean and differ only in the texts of their expressions. -/
structure SameButTexts (first second : Builder) : Prop where
  blanked_eq : first.blanked = second.blanked
  clean : first.IsClean

/-- An operation and another that are mirrored by one do the same on builders
that differ only in texts. -/
theorem SameButTexts.sameResult {α : Type} {step other blank : Build α}
    {first second : Builder} (same : first.SameButTexts second) (rel : α → α → Prop)
    (mirrored : Run.Mirrors blanked (Run.outcome step) (Run.outcome blank))
    (mirroredToo : Run.Mirrors blanked (Run.outcome other) (Run.outcome blank))
    (kept : ∀ {value next}, step first = .ok value next → next.IsClean ∧ rel value value) :
    Run.SameResult (fun result image => rel result.1 image.1 ∧ result.2.SameButTexts image.2)
      (Run.outcome step first) (Run.outcome other second) := by
  have outcomes := (mirrored first).symm.trans
    ((congrArg (Run.outcome blank) same.blanked_eq).trans (mirroredToo second))
  refine (Run.SameResult.of_map_eq outcomes).and ?_
  rintro ⟨value, next⟩ ⟨image, otherNext⟩ ran images
  obtain ⟨rfl, blanked_eq⟩ := Prod.ext_iff.mp images
  obtain ⟨clean, related⟩ := kept (Run.ok_of_outcome ran)
  exact ⟨related, blanked_eq, clean⟩

theorem elements_blanked (builder : Builder) :
    builder.blanked.elements = builder.elements.map Element.blanked := by
  have filtered : (builder.blocks.map Block.blanked).filter (fun block => !block.isVoid) =
      (builder.blocks.filter fun block => !block.isVoid).map Block.blanked := by
    rw [List.filter_map]
    simp only [Function.comp_def, Block.isVoid_blanked]
  simp only [elements, blanked, filtered, List.map_append, List.map_map]
  rfl

theorem IsClean.elements {builder : Builder} (clean : builder.IsClean) :
    ∀ element ∈ builder.elements, element.IsClean := by
  simp only [Builder.elements, List.forall_mem_append, List.forall_mem_map]
  exact ⟨⟨fun block member => clean.blocks block (List.mem_of_mem_filter member), clean.binds⟩,
    clean.filters⟩

/-- Builders that differ only in texts are closed to such queries. -/
theorem SameButTexts.build {first second : Builder} (same : first.SameButTexts second) :
    Run.SameResult Query.SameButTexts first.build second.build := by
  have elements : first.elements.map Element.blanked = second.elements.map Element.blanked := by
    rw [← elements_blanked, same.blanked_eq, elements_blanked]
  have clean := same.clean
  have parts := same.blanked_eq
  simp only [blanked, Builder.mk.injEq] at parts
  obtain ⟨catalog, _, useService, bindings, columns, _, _, _, _, projections, _, distinct, groupBy,
    having, orderBy, limit, offset⟩ := parts
  unfold Builder.build
  rw [← bindings]
  split
  · exact .error _
  · refine .ok ⟨?_, clean.projections, clean.elements, clean.groupBy, clean.having, clean.orderBy⟩
    simp only [Query.blanked, Query.mk.injEq]
    exact ⟨by rw [catalog], by rw [catalog, useService], distinct, projections, elements, groupBy,
      having, orderBy, limit, offset, columns⟩

end Builder

end TripleTables
