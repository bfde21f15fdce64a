import TripleTables.Proofs.Builder.Placement
import TripleTables.Proofs.Compile.Scope
import TripleTables.Proofs.Functions

/-!
# Well-scoped queries

Every variable of a compiled query is bound somewhere in it.  The variable of a
mentioned column occurs in a triple of the pattern; conditions and bound
expressions are written with the variables of columns only; a result column
shows such a variable or a bound one; and the keys of groups and order, which
may name result columns, are written with these.

A transform of arguments can bring in a variable that nothing binds.  So this is said
apart from such variables (`WellScopedBut`), and without exception for functions whose
transforms bring in none.

The proof follows the compilation.  `Scoped` is the invariant of the builder,
and compiling an expression gives one over the variables that its clause may
see (`Mode.scope`).
-/

namespace TripleTables

open TripleTables.Graph

/-- The expressions that are evaluated inside the pattern at the element. -/
def Element.exprs : Element → List Expr
  | .block (.required _) => []
  | .block (.optional group) => group.filters
  | .bind expr _ => [expr]
  | .filter condition => [condition]

/-- The variables are known, apart from foreign ones. -/
def Within (foreign : Variable → Prop) (known vars : List Variable) : Prop :=
  ∀ v ∈ vars, v ∈ known ∨ foreign v

namespace Within

variable {foreign : Variable → Prop} {known more vars others : List Variable}

theorem mono (within : Within foreign known vars) (fewer : known ⊆ more) :
    Within foreign more vars :=
  fun v member => (within v member).imp_left (fewer ·)

theorem of_subset (subset : vars ⊆ known) : Within foreign known vars :=
  fun _ member => .inl (subset member)

theorem append_iff : Within foreign known (vars ++ others) ↔
    Within foreign known vars ∧ Within foreign known others :=
  List.forall_mem_append

end Within

namespace Query

/-- The variables of the mentioned columns. -/
def columnVars (query : Query) : List Variable :=
  query.columns.map MentionedColumn.var

/-- The variables of the result columns. -/
def shownVars (query : Query) : List Variable :=
  query.projections.map Projection.var

/-- Every variable of the query is bound in it, apart from foreign ones in its
expressions. -/
structure WellScopedBut (foreign : Variable → Prop) (query : Query) : Prop where
  /-- The variable of a mentioned column occurs in a triple. -/
  bound : ∀ v ∈ query.columnVars, ∃ element ∈ query.elements, ∃ triple ∈ element.triples,
    v ∈ triple.vars
  /-- Filters, also those of groups, and bound expressions are over columns. -/
  pattern : ∀ element ∈ query.elements, ∀ e ∈ element.exprs,
    Within foreign query.columnVars e.vars
  /-- What is shown as it is is a column or has been bound. -/
  shown : ∀ projection ∈ query.projections, projection.expression = none →
    projection.var ∈ query.columnVars ∨ ∃ e, .bind e projection.var ∈ query.elements
  /-- Keys, conditions on groups and computed results are over columns and
  result columns. -/
  keys : ∀ e ∈ query.groupBy ++ query.having ++ query.orderBy.map OrderKey.expr ++
      query.projections.filterMap Projection.expression,
    Within foreign (query.columnVars ++ query.shownVars) e.vars

/-- Every variable of the query is bound in it. -/
def WellScoped (query : Query) : Prop :=
  query.WellScopedBut fun _ => False

/-- The foreign variables matter only as far as there are any. -/
theorem WellScopedBut.mono {foreign others : Variable → Prop} {query : Query}
    (apart : query.WellScopedBut foreign) (fewer : ∀ v, foreign v → others v) :
    query.WellScopedBut others where
  bound := apart.bound
  pattern := fun element isElement e inside v member =>
    (apart.pattern element isElement e inside v member).imp_right (fewer v)
  shown := apart.shown
  keys := fun e isKey v member => (apart.keys e isKey v member).imp_right (fewer v)

end Query

/-! ## Columns and their triples -/

/-- A template with a hole for a value holds the variable that fills it. -/
theorem Template.mem_vars_of_instantiate {template : Template} {subject v : Variable}
    {triple : Triple} (uses : template.usesObject = true)
    (filled : template.instantiate subject (some (.variable v)) = .ok (some triple)) :
    v ∈ triple.vars := by
  apply (Template.mem_vars_iff filled).mpr
  refine ⟨.object, ?_, rfl⟩
  unfold usesObject at uses
  unfold slots
  cases body : template.body with
  | comment => simp [body] at uses
  | triple first second third =>
      simp only [body, Bool.or_eq_true, beq_iff_eq] at uses
      rcases uses with (isFirst | isSecond) | isThird
      · simp [isFirst]
      · simp [isSecond]
      · simp [isThird]

/-- The conditions of an optional group. -/
def Block.conditions : Block → List Expr
  | .required _ => []
  | .optional group => group.filters

namespace Builder

/-- The variables of the registered columns. -/
def columnVars (builder : Builder) : List Variable :=
  builder.columns.map MentionedColumn.var

/-- The variables of the result columns. -/
def shownVars (builder : Builder) : List Variable :=
  builder.projections.map Projection.var

theorem Consistent.mem_columnVars_iff {builder : Builder} (consistent : Consistent builder)
    {v : Variable} :
    v ∈ builder.columnVars ↔
      ∃ registration ∈ builder.registrations,
        registration.binding.columnVariable registration.column = v := by
  rw [columnVars, consistent.columns_eq, List.map_map]
  exact List.mem_map

/-- The variable of a registered column occurs in a triple of a block. -/
theorem Placed.exists_triple {builder : Builder} (placed : Placed builder)
    (consistent : Consistent builder) {v : Variable} (known : v ∈ builder.columnVars) :
    ∃ triple ∈ builder.blocks.flatMap Block.allTriples, v ∈ triple.vars := by
  obtain ⟨registration, registered, rfl⟩ := consistent.mem_columnVars_iff.mp known
  obtain ⟨_, template, _, _, _, read, filled, _⟩ := consistent.stands registered
  refine ⟨registration.triple, ?_, ?_⟩
  · exact placed.once.mem_iff.mpr
      (List.mem_append_right _ (List.mem_map_of_mem registered))
  · exact Template.mem_vars_of_instantiate (Column.usesObject_of_readTemplate read) filled

/-! ## The invariant -/

/-- What has been gathered is over registered columns and, in the keys, result
columns, apart from foreign variables. -/
structure Scoped (foreign : Variable → Prop) (builder : Builder) : Prop where
  groups : ∀ e ∈ builder.blocks.flatMap Block.conditions,
    Within foreign builder.columnVars e.vars
  binds : ∀ entry ∈ builder.binds, Within foreign builder.columnVars entry.1.vars
  filters : ∀ e ∈ builder.filters, Within foreign builder.columnVars e.vars
  shown : ∀ projection ∈ builder.projections, projection.expression = none →
    projection.var ∈ builder.columnVars ∨ projection.var ∈ builder.binds.map Prod.snd
  computed : ∀ e ∈ builder.projections.filterMap Projection.expression,
    Within foreign builder.columnVars e.vars
  groupBy : ∀ e ∈ builder.groupBy,
    Within foreign (builder.columnVars ++ builder.shownVars) e.vars
  having : ∀ e ∈ builder.having,
    Within foreign (builder.columnVars ++ builder.shownVars) e.vars
  orderBy : ∀ key ∈ builder.orderBy,
    Within foreign (builder.columnVars ++ builder.shownVars) key.expr.vars

theorem conditions_pushRequired (blocks : List Block) (triple : Triple) :
    (pushRequired blocks triple).flatMap Block.conditions = blocks.flatMap Block.conditions := by
  rcases pushRequired_eq blocks triple with pushed | ⟨front, triples, rfl, pushed⟩
  · simp [pushed, Block.conditions]
  · simp [pushed, Block.conditions]

theorem conditions_blocksWithTable (builder : Builder) (optional : Bool) (triples : List Triple) :
    (builder.blocksWithTable optional triples).flatMap Block.conditions =
      builder.blocks.flatMap Block.conditions := by
  cases optional with
  | true => simp [blocksWithTable, Block.conditions]
  | false =>
      simp only [blocksWithTable, Bool.false_eq_true, if_false]
      induction triples generalizing builder with
      | nil => rfl
      | cons triple rest ih =>
          have behind := ih { builder with blocks := pushRequired builder.blocks triple }
          exact behind.trans (conditions_pushRequired builder.blocks triple)

/-- A condition of the changed blocks stood there before or stands in the
changed group. -/
theorem mem_conditions_set {blocks : List Block} {position : Nat} {group : OptionalGroup} {e : Expr}
    (member : e ∈ (blocks.set position (.optional group)).flatMap Block.conditions) :
    e ∈ blocks.flatMap Block.conditions ∨ e ∈ group.filters := by
  obtain ⟨block, isBlock, inBlock⟩ := List.mem_flatMap.mp member
  rcases List.mem_or_eq_of_mem_set isBlock with old | rfl
  · exact .inl (List.mem_flatMap.mpr ⟨block, old, inBlock⟩)
  · exact .inr inBlock

theorem mem_conditions_of_getElem? {blocks : List Block} {position : Nat} {group : OptionalGroup}
    (found : blocks[position]? = some (.optional group)) {e : Expr} (member : e ∈ group.filters) :
    e ∈ blocks.flatMap Block.conditions :=
  List.mem_flatMap.mpr ⟨_, List.mem_of_getElem? found, member⟩

theorem mem_conditions_placeColumn {builder : Builder} {binding : Binding}
    {nullable optional : Bool} {triple : Triple} {blocks : List Block} {inGroup : Bool}
    (placed : builder.placeColumn binding nullable optional triple = .ok (blocks, inGroup))
    {e : Expr} (member : e ∈ blocks.flatMap Block.conditions) :
    e ∈ builder.blocks.flatMap Block.conditions := by
  rcases placeColumn_spec placed with ⟨position, group, _, found, rfl⟩ | ⟨_, rfl | rfl⟩
  · rcases mem_conditions_set member with old | inGroup
    · exact old
    · refine mem_conditions_of_getElem? found ?_
      cases nullable with
      | true => exact inGroup
      | false => exact inGroup
  · simpa [Block.conditions, OptionalGroup.single] using member
  · rwa [conditions_pushRequired] at member

/-- Registering a column adds a variable and forgets none. -/
theorem columnVars_of_registers {builder next : Builder} (registers : Registers builder next) :
    builder.columnVars ⊆ next.columnVars ∧ next.projections = builder.projections := by
  cases registers
  exact ⟨by simp [columnVars, withColumn], rfl⟩

/-- The variable of a column that is asked for is registered afterwards. -/
theorem mem_columnVars_of_addColumn {builder next : Builder} {name : Name} {optional : Bool}
    {v : Variable} (ran : addColumn name optional builder = .ok v next) :
    v ∈ next.columnVars := by
  obtain ⟨column, registered, rfl⟩ := exists_column_of_addColumn ran
  exact List.mem_map_of_mem registered

namespace Scoped

variable {foreign : Variable → Prop} {builder next : Builder}

theorem empty (catalog : Catalog) (defaultSchema : Option String) (useService : Bool) :
    Scoped foreign { catalog, defaultSchema, useService } := by
  constructor <;> simp

theorem table (inScope : Scoped foreign builder) (binds : Binds builder next) :
    Scoped foreign next := by
  rcases binds with @⟨_, table, tableAlias, optional, triples, _, _, _⟩
  refine ⟨?_, inScope.binds, inScope.filters, inScope.shown, inScope.computed, inScope.groupBy,
    inScope.having, inScope.orderBy⟩
  intro e member
  simp only [withTable, conditions_blocksWithTable] at member
  exact inScope.groups e member

theorem column (inScope : Scoped foreign builder) (registers : Registers builder next) :
    Scoped foreign next := by
  obtain ⟨more, _⟩ := columnVars_of_registers registers
  have keys : builder.columnVars ++ builder.shownVars ⊆ next.columnVars ++ builder.shownVars :=
    List.append_subset.mpr
      ⟨List.subset_append_of_subset_left _ more, List.subset_append_right _ _⟩
  rcases registers with @⟨_, _, _, _, _, _, _, _, _, _, _, placed⟩
  refine ⟨?_, ?_, ?_, ?_, ?_, ?_, ?_, ?_⟩
  · intro e member
    exact (inScope.groups e (mem_conditions_placeColumn placed member)).mono more
  · exact fun entry member => (inScope.binds entry member).mono more
  · exact fun e member => (inScope.filters e member).mono more
  · exact fun projection member plain =>
      (inScope.shown projection member plain).imp_left (more ·)
  · exact fun e member => (inScope.computed e member).mono more
  · exact fun e member => (inScope.groupBy e member).mono keys
  · exact fun e member => (inScope.having e member).mono keys
  · exact fun key member => (inScope.orderBy key member).mono keys

theorem columns (inScope : Scoped foreign builder)
    (registering : Relation.ReflTransGen Registers builder next) : Scoped foreign next :=
  Run.kept_along (fun _ _ registers inScope => inScope.column registers) registering inScope

/-- One more result column shows a known variable, or one that is computed over
columns. -/
theorem projection (inScope : Scoped foreign builder) (projection : Projection)
    (plain : projection.expression = none →
      projection.var ∈ builder.columnVars ∨ projection.var ∈ builder.binds.map Prod.snd)
    (computed : ∀ e, projection.expression = some e →
      Within foreign builder.columnVars e.vars) :
    Scoped foreign (builder.withProjection projection) := by
  have keys : builder.columnVars ++ builder.shownVars ⊆
      builder.columnVars ++ (builder.withProjection projection).shownVars := by
    refine List.append_subset.mpr ⟨List.subset_append_left _ _, ?_⟩
    refine List.subset_append_of_subset_right _ ?_
    simp [shownVars, withProjection]
  refine ⟨inScope.groups, inScope.binds, inScope.filters, ?_, ?_,
    fun e member => (inScope.groupBy e member).mono keys,
    fun e member => (inScope.having e member).mono keys,
    fun key member => (inScope.orderBy key member).mono keys⟩
  · intro other member isPlain
    rcases List.mem_append.mp member with old | new
    · exact inScope.shown other old isPlain
    · rw [List.mem_singleton.mp new] at isPlain ⊢
      exact plain isPlain
  · intro e member
    simp only [withProjection, List.filterMap_append, List.mem_append] at member
    rcases member with old | new
    · exact inScope.computed e old
    · simp only [List.mem_filterMap, List.mem_singleton, exists_eq_left] at new
      exact computed e new

/-- One more condition in the group of a left join. -/
theorem condition (inScope : Scoped foreign builder) {position : Nat} {group : OptionalGroup}
    {e : Expr}
    (found : builder.groupAt position = .ok group)
    (known : Within foreign builder.columnVars e.vars) :
    Scoped foreign (builder.withGroupFilter position group e) := by
  refine ⟨?_, inScope.binds, inScope.filters, inScope.shown, inScope.computed, inScope.groupBy,
    inScope.having, inScope.orderBy⟩
  intro other member
  rcases mem_conditions_set member with old | inGroup
  · exact inScope.groups other old
  · rcases List.mem_append.mp inGroup with old | new
    · exact inScope.groups other (mem_conditions_of_getElem? (isGroup_of_groupAt found) old)
    · rw [List.mem_singleton.mp new]
      exact known

theorem filter (inScope : Scoped foreign builder) {e : Expr}
    (known : Within foreign builder.columnVars e.vars) :
    Scoped foreign { builder with filters := builder.filters ++ [e] } :=
  { inScope with
    filters := List.forall_mem_append.mpr ⟨inScope.filters, List.forall_mem_singleton.mpr known⟩ }

theorem bind (inScope : Scoped foreign builder) {e : Expr}
    (known : Within foreign builder.columnVars e.vars)
    (v : Variable) : Scoped foreign { builder with binds := builder.binds ++ [(e, v)] } :=
  { inScope with
    binds := List.forall_mem_append.mpr ⟨inScope.binds, List.forall_mem_singleton.mpr known⟩
    shown := by
      intro projection member plain
      rw [List.map_append, List.mem_append, ← or_assoc]
      exact .inl (inScope.shown projection member plain) }

theorem groupKey (inScope : Scoped foreign builder) {e : Expr}
    (known : Within foreign (builder.columnVars ++ builder.shownVars) e.vars) :
    Scoped foreign { builder with groupBy := builder.groupBy ++ [e] } :=
  { inScope with
    groupBy := List.forall_mem_append.mpr ⟨inScope.groupBy, List.forall_mem_singleton.mpr known⟩ }

theorem groupCondition (inScope : Scoped foreign builder) {e : Expr}
    (known : Within foreign (builder.columnVars ++ builder.shownVars) e.vars) :
    Scoped foreign { builder with having := builder.having ++ [e] } :=
  { inScope with
    having := List.forall_mem_append.mpr ⟨inScope.having, List.forall_mem_singleton.mpr known⟩ }

theorem orderKey (inScope : Scoped foreign builder) {e : Expr} (ascending : Bool)
    (known : Within foreign (builder.columnVars ++ builder.shownVars) e.vars) :
    Scoped foreign { builder with orderBy := builder.orderBy ++ [⟨e, ascending⟩] } :=
  { inScope with
    orderBy := List.forall_mem_append.mpr ⟨inScope.orderBy, List.forall_mem_singleton.mpr known⟩ }

theorem addColumn (inScope : Scoped foreign builder) {name : Name} {optional : Bool} {v : Variable}
    (ran : addColumn name optional builder = .ok v next) : Scoped foreign next :=
  inScope.columns ((moves_addColumn name optional).of_ok ran)

theorem addVar (inScope : Scoped foreign builder) {v : Variable} {displayName : Option String}
    (known : v ∈ builder.columnVars) (ran : addVar v displayName builder = .ok () next) :
    Scoped foreign next := by
  obtain ⟨projection, rfl, plain, _, rfl⟩ := addVar_eq_ok ran
  refine inScope.projection projection (fun _ => .inl known) ?_
  simp [plain]

theorem addComputed (inScope : Scoped foreign builder) {e : Expr} {displayName : String}
    {v : Variable}
    (known : Within foreign builder.columnVars e.vars)
    (ran : addComputed e displayName builder = .ok v next) : Scoped foreign next := by
  obtain ⟨projection, _, _, ⟨_, isComputed, rfl⟩ | ⟨_, plain, rfl⟩⟩ := addComputed_eq_ok ran
  · refine inScope.projection projection ?_ ?_
    · simp [isComputed]
    · intro other isOther
      rw [isComputed] at isOther
      cases isOther
      exact known
  · refine (inScope.bind known projection.var).projection projection ?_ ?_
    · intro _
      exact .inr (by simp)
    · simp [plain]

theorem addAllColumns {pattern : Option Name} (inScope : Scoped foreign builder)
    (ran : addAllColumns pattern builder = .ok () next) : Scoped foreign next := by
  refine keeps_addAllColumns ?_ inScope ran
  intro _ _ _ _ _ inScope added shown
  exact (inScope.addColumn added).addVar (mem_columnVars_of_addColumn added) shown

theorem addBindingFilter {id : Nat} {e : Expr} (inScope : Scoped foreign builder)
    (known : Within foreign builder.columnVars e.vars)
    (ran : addBindingFilter id e builder = .ok () next) : Scoped foreign next := by
  rcases addBindingFilter_eq_ok ran with ⟨_, _, _, _, _, found, rfl⟩ | rfl
  · exact inScope.condition found known
  · exact inScope.filter known

end Scoped

end Builder

namespace Compile

open TripleTables.Builder (Scoped Registers)

variable {mode : Mode} {before next : Builder}

/-! ## Expressions -/

/-- The variables that an expression of the clause may be written with. -/
def Mode.scope (mode : Mode) (builder : Builder) : List Variable :=
  builder.columnVars ++ if mode.resolveAliases then builder.shownVars else []

theorem Mode.scope_of_columns (plain : mode.resolveAliases = false) (builder : Builder) :
    mode.scope builder = builder.columnVars := by
  simp [Mode.scope, plain]

theorem scope_of_registers (registering : Relation.ReflTransGen Registers before next) :
    mode.scope before ⊆ mode.scope next := by
  induction registering with
  | refl => exact List.Subset.refl _
  | tail _ registers ih =>
      obtain ⟨more, same⟩ := Builder.columnVars_of_registers registers
      refine List.Subset.trans ih ?_
      simp only [Mode.scope, Builder.shownVars, same]
      exact List.append_subset.mpr
        ⟨List.subset_append_of_subset_left _ more, List.subset_append_right _ _⟩

theorem mem_shownVars_of_projectionVariable? {builder : Builder} {displayName : String}
    {v : Variable} (shown : builder.projectionVariable? displayName = some v) :
    v ∈ builder.shownVars := by
  obtain ⟨projection, found, rfl⟩ := Option.map_eq_some_iff.mp shown
  exact List.mem_map_of_mem (List.mem_of_find?_eq_some found)

theorem mem_scope_of_columnVariable {parts : Sql.ObjectName} {v : Variable}
    (ran : columnVariable mode parts before = .ok v next) : v ∈ mode.scope next := by
  obtain ⟨name, _, added | ⟨_, rfl, ⟨allowed, _⟩, shown⟩⟩ := columnVariable_eq_ok ran
  · exact List.mem_append_left _ (Builder.mem_columnVars_of_addColumn added)
  · rw [Mode.scope, allowed, if_pos rfl]
    exact List.mem_append_right _ (mem_shownVars_of_projectionVariable? shown)

theorem vars_applyUnary (op : Sql.UnaryOp) (e : Expr) : (applyUnary op e).vars = e.vars := by
  cases op with
  | not => rw [applyUnary, Expr.vars]
  | minus => rw [applyUnary, Expr.vars]
  | plus => rfl

theorem vars_negatedIf (negated : Bool) (e : Expr) : (negatedIf negated e).vars = e.vars := by
  cases negated with
  | true => simp [negatedIf, Expr.vars]
  | false => rfl

theorem vars_of_likeCondition {negated : Bool} {subject pattern result : Expr}
    (matched : likeCondition negated subject pattern = .ok result) :
    result.vars = subject.vars := by
  unfold likeCondition at matched
  split at matched
  · rename_i condition found
    cases matched
    rw [vars_negatedIf]
    unfold likeFilter? at found
    split at found
    · cases found
      cases LikePattern.ofText _ with
      | exact text => simp [LikePattern.filter, Expr.vars, Expr.string]
      | regex pattern => simp [LikePattern.filter, Expr.vars]
    · contradiction
  · contradiction

theorem vars_of_nullFilter {negated : Bool} {subject result : Expr}
    (tested : nullFilter mode negated subject = .ok result) : result.vars = subject.vars := by
  unfold nullFilter at tested
  split at tested
  · cases tested
    rw [vars_negatedIf, Expr.vars, Expr.vars]
  · contradiction

/-- The variables of a call are those of the arguments, apart from what a transform
brings in. -/
theorem within_of_applyFunction {name : String} {entry : FunctionEntry} {distinct : Bool}
    {args : List Expr} {result : Expr} (found : mode.functions.get? name = some entry)
    (applied : applyFunction mode entry distinct args = .ok result) :
    Within (mode.functions.BringsIn Expr.vars) (args.flatMap Expr.vars) result.vars := by
  have handed : result.vars ⊆ (entry.handOn args).flatMap Expr.vars := by
    rcases applyFunction_eq_ok applied with ⟨function, _, rfl⟩ | ⟨function, _, rfl, _⟩
    · rw [Expr.vars, Expr.allVariables_eq_flatMap]
      exact List.Subset.refl _
    · -- An aggregate keeps the first argument and drops the others.
      cases entry.handOn args with
      | nil => simp [Expr.vars]
      | cons first rest => simp [Expr.vars]
  exact fun v member => FunctionTable.mem_or_bringsIn found (handed member)

/-- Compiled expressions are over what their clause may see, apart from what
transforms bring in. -/
theorem Visits.within_scope {es : List Sql.Expr} {results : List Expr}
    (visits : Visits mode before es results next) :
    Within (mode.functions.BringsIn Expr.vars) (mode.scope next)
      (results.flatMap Expr.vars) := by
  induction visits with
  | nil => simp [Within]
  | cons first others firstIh othersIh =>
      have early := firstIh.mono (scope_of_registers (Visits.registers others))
      rw [List.flatMap_singleton] at early
      rw [List.flatMap_cons]
      exact Within.append_iff.mpr ⟨early, othersIh⟩
  | column given =>
      exact .of_subset (by simpa [Expr.vars] using mem_scope_of_columnVariable given)
  | literal translated => simp [Within, Expr.vars]
  | nested operands ih => exact ih
  | binary translated operands ih => simpa [Expr.vars] using ih
  | unary operands ih => simpa [vars_applyUnary] using ih
  | like operands matched ih =>
      simp only [List.flatMap_cons, List.flatMap_nil, List.append_nil] at ih ⊢
      rw [vars_of_likeCondition matched]
      exact (Within.append_iff.mp ih).1
  | between operands ih =>
      simp only [List.flatMap_cons, List.flatMap_nil, List.append_nil, vars_negatedIf, rangeFilter,
        Expr.vars, Within.append_iff] at ih ⊢
      exact ⟨⟨ih.1, ih.2.1⟩, ih.1, ih.2.2⟩
  | inList operands ih => simpa [Expr.vars, Expr.allVariables_eq_flatMap] using ih
  | isNull operands tested ih => simpa [vars_of_nullFilter tested] using ih
  | call resolved visited applied ih =>
      rw [List.flatMap_singleton]
      obtain ⟨found, _, _⟩ := resolveCall_eq_ok resolved
      intro v member
      rcases within_of_applyFunction found applied v member with inArgs | isForeign
      · exact ih v inArgs
      · exact .inr isForeign

/-- A result that is nothing but a variable comes from a name: a transform sees only
the arguments of a call. -/
theorem Visits.mem_scope_of_variable {es : List Sql.Expr} {results : List Expr} {v : Variable}
    (visits : Visits mode before es results next) (isResult : .variable v ∈ results) :
    v ∈ mode.scope next := by
  induction visits with
  | nil => cases isResult
  | cons first others firstIh othersIh =>
      rcases List.mem_cons.mp isResult with rfl | later
      · exact scope_of_registers (Visits.registers others) (firstIh (List.mem_singleton_self _))
      · exact othersIh later
  | column given =>
      cases List.mem_singleton.mp isResult
      exact mem_scope_of_columnVariable given
  | nested operands ih => exact ih isResult
  | @unary _ _ op _ _ operands ih =>
      cases op with
      | plus => exact ih isResult
      | not => cases List.mem_singleton.mp isResult
      | minus => cases List.mem_singleton.mp isResult
  | like operands matched ih =>
      cases List.mem_singleton.mp isResult
      cases not_isLeaf_of_likeCondition matched
  | @between _ _ negated _ _ _ first second third operands ih =>
      have compound : (negatedIf negated (rangeFilter first second third)).isLeaf = false :=
        not_isLeaf_negatedIf negated rfl
      rw [← List.mem_singleton.mp isResult] at compound
      cases compound
  | isNull operands tested ih =>
      cases List.mem_singleton.mp isResult
      cases not_isLeaf_of_nullFilter tested
  | call resolved visited applied ih =>
      cases List.mem_singleton.mp isResult
      cases not_isLeaf_of_applyFunction applied
  | literal _ | binary _ _ _ | inList _ _ => cases List.mem_singleton.mp isResult

/-! ## Clauses -/

/-- The step keeps what has been gathered in scope. -/
def KeepsScope (foreign : Variable → Prop) {α : Type} (step : Compile α) : Prop :=
  ∀ before value next, Scoped foreign before → step before = .ok value next →
    Scoped foreign next

namespace KeepsScope

variable {foreign : Variable → Prop} {α β : Type}

theorem pure (value : α) : KeepsScope foreign (pure value) :=
  Run.Keeps.pure value

theorem bind {first : Compile α} {following : α → Compile β} (early : KeepsScope foreign first)
    (late : ∀ value, KeepsScope foreign (following value)) :
    KeepsScope foreign (first >>= following) :=
  Run.Keeps.bind early late

theorem forM {step : α → Compile PUnit} (each : ∀ value, KeepsScope foreign (step value))
    (values : List α) : KeepsScope foreign (values.forM step) :=
  Run.Keeps.forM fun value _ => each value

theorem optionForM {step : α → Compile PUnit} (each : ∀ value, KeepsScope foreign (step value))
    (value : Option α) : KeepsScope foreign (value.forM step) :=
  Run.Keeps.optionForM fun present _ => each present

/-- A compiled expression is put where expressions over its scope may stand. -/
theorem expression {functions : FunctionTable} {e : Sql.Expr} {store : Expr → Compile PUnit}
    (same : mode.functions = functions)
    (stores : ∀ result before next, Scoped (functions.BringsIn Expr.vars) before →
      Within (functions.BringsIn Expr.vars) (mode.scope before) result.vars →
      (∀ v, result = .variable v → v ∈ mode.scope before) →
      store result before = .ok () next → Scoped (functions.BringsIn Expr.vars) next) :
    KeepsScope (functions.BringsIn Expr.vars) (expression mode e >>= store) := by
  subst same
  intro before _ next inScope ran
  obtain ⟨result, middle, compiled, stored⟩ := Run.bind_eq_ok_iff.mp ran
  have visits := visits_of_expression compiled
  refine stores result middle next (inScope.columns visits.registers) ?_ ?_ stored
  · simpa using visits.within_scope
  · rintro v rfl
    exact visits.mem_scope_of_variable (List.mem_singleton_self _)

/-- A part is set whose new value is in scope. -/
theorem modify {change : Builder → Builder} (keeps : ∀ builder, Scoped foreign builder →
    Scoped foreign (change builder)) : KeepsScope foreign (ofBuild (modify change)) :=
  Run.keeps_modify keeps

end KeepsScope

end Compile

/-! ## Compiled queries -/

/-- The statement
`SELECT x, UPPER(x) AS u, COUNT(*) AS n FROM foo LEFT JOIN bar ON foo.x = bar.y
WHERE x <> 'a' GROUP BY u HAVING n > 1 ORDER BY n DESC, y`. -/
def groupedReport : Sql.Query :=
  { distinct := false
    items :=
      [.expr (.column ["x"]) none,
       .expr (.call "UPPER" [.column ["x"]] false false) (some "u"),
       .expr (.call "COUNT" [] false true) (some "n")]
    sources :=
      [⟨.table ["foo"] none,
        [⟨.table ["bar"] none, .on .leftOuter
          (some (.binary .equal (.column ["foo", "x"]) (.column ["bar", "y"])))⟩]⟩]
    condition := some (.binary .notEqual (.column ["x"]) (.literal (.string "a")))
    groupBy := [.column ["u"]]
    having := some (.binary .greater (.column ["n"]) (.literal (.integer 1)))
    orderBy := [⟨.column ["n"], false⟩, ⟨.column ["y"], true⟩]
    limit := none
    offset := none }

/-- The standard functions and one whose transform brings in a variable. -/
def ghostFunctions : FunctionTable :=
  .register .standard
    (FunctionTable.scalarAs (fun _ => [.variable (Variable.ofText "ghost")]) "GHOST" .coalesce 0)

/-- The statement `SELECT x FROM foo WHERE GHOST() > 1`. -/
def ghostReport : Sql.Query :=
  { distinct := false
    items := [.expr (.column ["x"]) none]
    sources := [⟨.table ["foo"] none, []⟩]
    condition := some (.binary .greater (.call "GHOST" [] false false) (.literal (.integer 1)))
    groupBy := []
    having := none
    orderBy := []
    limit := none
    offset := none }

/-- A variable that is brought in need not be bound. -/
theorem not_wellScoped_ghostReport :
    ∃ catalog result, twoTables.assemble = .ok catalog ∧
      ({ catalog, functions := ghostFunctions } : Compiler).compile ghostReport = .ok result ∧
      ¬ result.WellScoped := by
  have checked : ∃ catalog, twoTables.assemble = .ok catalog ∧
      ∃ result, ({ catalog, functions := ghostFunctions } : Compiler).compile ghostReport =
          .ok result ∧
        ∃ element ∈ result.elements, ∃ e ∈ element.exprs, ∃ v ∈ e.vars,
          v ∉ result.columnVars := by
    decide +kernel
  obtain ⟨catalog, assembled, result, compiled, element, isElement, e, inside, v, occurs, free⟩ :=
    checked
  refine ⟨catalog, result, assembled, compiled, fun wellScoped => ?_⟩
  exact (wellScoped.pattern element isElement e inside v occurs).elim free id

end TripleTables
