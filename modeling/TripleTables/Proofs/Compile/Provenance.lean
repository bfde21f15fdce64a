import TripleTables.Proofs.Compile.Optionality
import TripleTables.Proofs.Compile.WellScoped
import TripleTables.Proofs.Graph.Nodes

/-!
# Where the expressions of a query come from

A compiled query holds expressions in several roles: as conditions of the
pattern, as values that are bound or shown, as keys and conditions of groups, and
as keys of the order.  Each of them is what an expression of the statement was
compiled to, in the mode of the clause that has the role, or names a result
column that orders the rows (`traced_of_clauses`).

So a property of all nodes that a mode can give, and of those that transforms of
arguments bring in (`Visits.every`), is a property of all nodes of a query, role by
role.
-/

namespace TripleTables

open TripleTables.Graph
open Relation

/-! ## Roles -/

/-- What an expression is for in a query. -/
inductive Role where
  /-- A filter, also one inside an optional group. -/
  | condition
  /-- A value that a variable of the pattern is bound to. -/
  | bound
  /-- A value that is computed where it is shown. -/
  | computed
  | groupKey
  | groupCondition
  | orderKey
deriving DecidableEq

namespace Role

/-- Aggregates may stand in what is compiled for the role. -/
def allowsAggregates : Role → Bool
  | .condition | .groupKey => false
  | .bound | .computed | .groupCondition | .orderKey => true

/-- Names may mean result columns in what is compiled for the role. -/
def resolvesAliases : Role → Bool
  | .groupKey | .groupCondition => true
  | .condition | .bound | .computed | .orderKey => false

/-- The expression can have the role: of the values of a select list, those with
an aggregate are computed where they are shown, and the others are bound. -/
def Takes : Role → Expr → Prop
  | .bound, e => e.containsAggregate = false
  | .computed, e => e.containsAggregate = true
  | .condition, _ | .groupKey, _ | .groupCondition, _ | .orderKey, _ => True

end Role

/-- The expression that an item of a select list shows. -/
def Sql.SelectItem.expr? : Sql.SelectItem → Option Sql.Expr
  | .expr e _ => some e
  | .wildcard | .qualifiedWildcard _ => none

/-- The expressions of a statement that are compiled for a role. -/
def Sql.Query.exprsFor (query : Sql.Query) : Role → List Sql.Expr
  | .condition =>
      Sql.SourceWithJoins.conditionsOn .inner query.sources ++
        Sql.SourceWithJoins.conditionsOn .leftOuter query.sources ++ query.condition.toList
  | .bound | .computed => query.items.filterMap Sql.SelectItem.expr?
  | .groupKey => query.groupBy
  | .groupCondition => query.having.toList
  | .orderKey => query.orderBy.map Sql.OrderItem.expr

theorem Sql.SelectItem.every_parts_of_mem_expr? {holds : Sql.Part → Prop} {item : Sql.SelectItem}
    {e : Sql.Expr} (every : Sql.Part.Every holds item.parts) (shown : e ∈ item.expr?) :
    Sql.Part.Every holds e.parts := by
  cases item with
  | expr value asName =>
      cases shown
      exact (Sql.Part.every_cons.mp every).2
  | wildcard => cases shown
  | qualifiedWildcard name => cases shown

theorem Sql.SourceWithJoins.every_parts_of_mem_conditionsOn {holds : Sql.Part → Prop}
    {sources : List Sql.SourceWithJoins} {kind : Sql.JoinKind} {e : Sql.Expr}
    (every : ∀ source ∈ sources, Sql.Part.Every holds source.parts)
    (joined : e ∈ Sql.SourceWithJoins.conditionsOn kind sources) :
    Sql.Part.Every holds e.parts := by
  obtain ⟨⟨first, joins⟩, isSource, joined⟩ := List.mem_flatMap.mp joined
  obtain ⟨⟨source, rule⟩, isJoin, joined⟩ := List.mem_flatMap.mp joined
  have inJoins := (Sql.Part.every_append.mp (every _ isSource)).2
  rw [Sql.Join.listParts_eq, Sql.Part.every_flatMap] at inJoins
  have inRule := (Sql.Part.every_append.mp (inJoins _ isJoin)).2
  cases rule with
  | cross => cases joined
  | on other condition =>
      simp only [Sql.JoinRule.conditionsOn] at joined
      split at joined
      · exact (Sql.Expr.every_optionParts condition).mp inRule e (Option.mem_toList.mp joined)
      · cases joined

/-- What is compiled for a role stands in the statement. -/
theorem Sql.Query.every_parts_of_mem_exprsFor {holds : Sql.Part → Prop} (query : Sql.Query)
    {role : Role} {e : Sql.Expr} (every : Sql.Part.Every holds query.parts)
    (written : e ∈ query.exprsFor role) : Sql.Part.Every holds e.parts := by
  rcases query with ⟨distinct, items, sources, condition, groupBy, having, orderBy, limit, offset⟩
  simp only [Sql.Query.parts, Sql.Part.every_cons, Sql.Part.every_append,
    Sql.Part.every_flatMap, Sql.SelectItem.listParts_eq, Sql.SourceWithJoins.listParts_eq,
    Sql.Expr.listParts_eq, Sql.Expr.every_optionParts, Sql.OrderItem.listParts_eq] at every
  obtain ⟨_, inItems, inSources, inCondition, inGroupBy, inHaving, inOrderBy⟩ := every
  cases role with
  | condition =>
      simp only [exprsFor, List.mem_append, Option.mem_toList] at written
      rcases written with (inner | left) | isCondition
      · exact Sql.SourceWithJoins.every_parts_of_mem_conditionsOn inSources inner
      · exact Sql.SourceWithJoins.every_parts_of_mem_conditionsOn inSources left
      · exact inCondition e isCondition
  | bound | computed =>
      obtain ⟨item, isItem, shown⟩ := List.mem_filterMap.mp written
      exact Sql.SelectItem.every_parts_of_mem_expr? (inItems item isItem) shown
  | groupKey => exact inGroupBy e written
  | groupCondition => exact inHaving e (Option.mem_toList.mp written)
  | orderKey =>
      obtain ⟨⟨key, ascending⟩, isKey, rfl⟩ := List.mem_map.mp written
      exact inOrderBy _ isKey

/-- The expression whose value is bound at the element. -/
def Element.boundExpr? : Element → Option Expr
  | .bind e _ => some e
  | .block _ | .filter _ => none

/-- The expressions of a query in a role. -/
def Query.exprsAs (query : Query) : Role → List Expr
  | .condition => query.elements.flatMap Element.conditions ++ query.filters
  | .bound => query.elements.filterMap Element.boundExpr?
  | .computed => query.projections.filterMap Projection.expression
  | .groupKey => query.groupBy
  | .groupCondition => query.having
  | .orderKey => query.orderBy.map OrderKey.expr

/-- The expressions that have been gathered in a role. -/
def Builder.exprsAs (builder : Builder) : Role → List Expr
  | .condition => builder.blocks.flatMap Block.conditions ++ builder.filters
  | .bound => builder.binds.map Prod.fst
  | .computed => builder.projections.filterMap Projection.expression
  | .groupKey => builder.groupBy
  | .groupCondition => builder.having
  | .orderKey => builder.orderBy.map OrderKey.expr

/-- What a query holds in a role has been gathered in it. -/
theorem Builder.exprsAs_of_build {builder : Builder} {result : Query}
    (built : builder.build = .ok result) (role : Role) :
    result.exprsAs role ⊆ builder.exprsAs role := by
  obtain ⟨elements, _, projections, groupBy, having, orderBy⟩ := parts_of_build built
  intro e member
  cases role with
  | condition =>
      rw [Query.exprsAs, List.mem_append, Query.filters, elements, elements_eq] at member
      rw [exprsAs, List.mem_append]
      rcases member with inGroup | isFilter
      · obtain ⟨element, isElement, inside⟩ := List.mem_flatMap.mp inGroup
        simp only [List.mem_append, List.mem_map, List.mem_filter] at isElement
        rcases isElement with ⟨block, ⟨isBlock, _⟩, rfl⟩ | ⟨_, _, rfl⟩ | ⟨_, _, rfl⟩
        · refine .inl (List.mem_flatMap.mpr ⟨block, isBlock, ?_⟩)
          cases block with
          | required triples => simp [Element.conditions] at inside
          | optional group => exact inside
        · simp [Element.conditions] at inside
        · simp [Element.conditions] at inside
      · obtain ⟨element, isElement, found⟩ := List.mem_filterMap.mp isFilter
        simp only [List.mem_append, List.mem_map, List.mem_filter] at isElement
        rcases isElement with ⟨_, _, rfl⟩ | ⟨_, _, rfl⟩ | ⟨condition, isCondition, rfl⟩
        · cases found
        · cases found
        · cases found
          exact .inr isCondition
  | bound =>
      rw [Query.exprsAs, elements, elements_eq] at member
      obtain ⟨element, isElement, found⟩ := List.mem_filterMap.mp member
      simp only [List.mem_append, List.mem_map, List.mem_filter] at isElement
      rcases isElement with ⟨_, _, rfl⟩ | ⟨entry, isEntry, rfl⟩ | ⟨_, _, rfl⟩
      · cases found
      · cases found
        exact List.mem_map_of_mem isEntry
      · cases found
  | computed => rwa [Query.exprsAs, projections] at member
  | groupKey => rwa [Query.exprsAs, groupBy] at member
  | groupCondition => rwa [Query.exprsAs, having] at member
  | orderKey => rwa [Query.exprsAs, orderBy] at member

/-! ## Nodes that a mode can give -/

/-- The outermost node applies a function or an aggregate. -/
def Graph.Expr.isApplication : Expr → Bool
  | .call _ _ | .aggregate _ _ _ => true
  | _ => false

/-- The nodes that apply a function or an aggregate. -/
def Graph.Expr.applications (e : Expr) : List Expr :=
  e.nodes.filter isApplication

namespace Compile

variable {mode : Mode} {before next : Builder}

theorem Visits.length_eq {es : List Sql.Expr} {results : List Expr}
    (visits : Visits mode before es results next) : results.length = es.length := by
  induction visits with
  | cons _ _ _ othersIh => simp [othersIh]
  | _ => rfl

section Every

variable {holds : Expr → Prop} (plain : ∀ e, e.isApplication = false → holds e)

include plain

theorem every_constant (value : Literal) : (Expr.constant value).Every holds :=
  Expr.every_iff.mpr ⟨plain _ rfl, by simp [Expr.children]⟩

theorem every_applyUnary (op : Sql.UnaryOp) {e : Expr} (every : e.Every holds) :
    (applyUnary op e).Every holds := by
  cases op with
  | not => exact Expr.every_iff.mpr ⟨plain _ rfl, by simpa [applyUnary, Expr.children] using every⟩
  | minus =>
      exact Expr.every_iff.mpr ⟨plain _ rfl, by simpa [applyUnary, Expr.children] using every⟩
  | plus => exact every

theorem every_negatedIf (negated : Bool) {e : Expr} (every : e.Every holds) :
    (negatedIf negated e).Every holds := by
  cases negated with
  | true => exact Expr.every_iff.mpr ⟨plain _ rfl, by simpa [negatedIf, Expr.children] using every⟩
  | false => exact every

theorem every_binary (op : BinaryOp) {left right : Expr} (leftEvery : left.Every holds)
    (rightEvery : right.Every holds) : (Expr.binary op left right).Every holds :=
  Expr.every_iff.mpr ⟨plain _ rfl, by simpa [Expr.children] using ⟨leftEvery, rightEvery⟩⟩

theorem every_of_likeCondition {negated : Bool} {subject pattern result : Expr}
    (every : subject.Every holds) (matched : likeCondition negated subject pattern = .ok result) :
    result.Every holds := by
  unfold likeCondition at matched
  split at matched
  · rename_i condition found
    cases matched
    apply every_negatedIf plain
    unfold likeFilter? at found
    split at found
    · cases found
      cases LikePattern.ofText _ with
      | exact text => exact every_binary plain _ every (every_constant plain _)
      | regex pattern =>
          exact Expr.every_iff.mpr
            ⟨plain _ rfl, by simpa [LikePattern.filter, Expr.children] using every⟩
    · contradiction
  · contradiction

theorem every_of_nullFilter {negated : Bool} {subject result : Expr}
    (tested : nullFilter mode negated subject = .ok result) : result.Every holds := by
  unfold nullFilter at tested
  split at tested
  · cases tested
    exact every_negatedIf plain _ (Expr.every_iff.mpr ⟨plain _ rfl, by simp [Expr.children]⟩)
  · contradiction

variable (brought : ∀ node, mode.functions.BringsIn Expr.applications node → holds node)

include brought

/-- The nodes that are handed on to a function are plain, stand in the arguments or
are brought in. -/
theorem every_of_mem_handOn {name : String} {entry : FunctionEntry} {args : List Expr}
    (found : mode.functions.get? name = some entry) (every : ∀ e ∈ args, e.Every holds) :
    ∀ e ∈ entry.handOn args, e.Every holds := by
  intro e member node isNode
  cases applies : node.isApplication with
  | false => exact plain node applies
  | true =>
      have handed : node ∈ (entry.handOn args).flatMap Expr.applications :=
        List.mem_flatMap.mpr ⟨e, member, List.mem_filter.mpr ⟨isNode, applies⟩⟩
      rcases FunctionTable.mem_or_bringsIn found handed with inArgs | isForeign
      · obtain ⟨arg, isArg, inside⟩ := List.mem_flatMap.mp inArgs
        exact every arg isArg node (List.mem_filter.mp inside).1
      · exact brought node isForeign

theorem every_of_applyFunction {name : String} {entry : FunctionEntry} {distinct : Bool}
    {args : List Expr} {result : Expr} (found : mode.functions.get? name = some entry)
    (every : ∀ e ∈ args, e.Every holds)
    (applied : applyFunction mode entry distinct args = .ok result) (here : holds result) :
    result.Every holds := by
  have handed := every_of_mem_handOn plain brought found every
  refine Expr.every_iff.mpr ⟨here, ?_⟩
  rcases applyFunction_eq_ok applied with ⟨function, _, rfl⟩ | ⟨function, _, rfl, _⟩
  · exact handed
  · -- An aggregate keeps the first argument.
    intro child isChild
    refine handed child (List.mem_of_mem_head? ?_)
    simpa [Expr.children] using isChild

/-- All nodes of what is compiled have a property, if all plain nodes have it and
those that are brought in, and the results of all calls that are written do. -/
theorem Visits.every_of_written {es : List Sql.Expr} {results : List Expr}
    {written : Sql.Part → Prop}
    (application : ∀ {name sources distinct star entry args result},
      written (.expr (.call name sources distinct star)) →
      resolveCall mode name sources.length distinct star = .ok entry →
      args.length = sources.length → applyFunction mode entry distinct args = .ok result →
      holds result)
    (visits : Visits mode before es results next)
    (parts : Sql.Part.Every written (Sql.Expr.listParts es)) : ∀ e ∈ results, e.Every holds := by
  induction visits with
  | nil => simp
  | cons first others firstIh othersIh =>
      simp only [Sql.Expr.listParts, List.append_nil, Sql.Part.every_append] at parts firstIh
      exact List.forall_mem_cons.mpr
        ⟨firstIh parts.1 _ (List.mem_singleton_self _), othersIh parts.2⟩
  | column given =>
      exact List.forall_mem_singleton.mpr
        (Expr.every_iff.mpr ⟨plain _ rfl, by simp [Expr.children]⟩)
  | literal translated => exact List.forall_mem_singleton.mpr (every_constant plain _)
  | nested operands ih =>
      simp only [Sql.Expr.listParts, Sql.Expr.parts, List.append_nil,
        Sql.Part.every_cons] at parts ih
      exact ih parts.2
  | binary translated operands ih =>
      simp only [Sql.Expr.listParts, Sql.Expr.parts, List.append_nil, Sql.Part.every_cons,
        List.forall_mem_cons] at parts ih
      obtain ⟨left, right, _⟩ := ih parts.2
      exact List.forall_mem_singleton.mpr (every_binary plain _ left right)
  | unary operands ih =>
      simp only [Sql.Expr.listParts, Sql.Expr.parts, List.append_nil, Sql.Part.every_cons,
        List.forall_mem_singleton] at parts ih
      exact List.forall_mem_singleton.mpr (every_applyUnary plain _ (ih parts.2))
  | like operands matched ih =>
      simp only [Sql.Expr.listParts, Sql.Expr.parts, List.append_nil, Sql.Part.every_cons,
        List.forall_mem_cons] at parts ih
      exact List.forall_mem_singleton.mpr (every_of_likeCondition plain (ih parts.2).1 matched)
  | between operands ih =>
      simp only [Sql.Expr.listParts, Sql.Expr.parts, List.append_nil, Sql.Part.every_cons,
        List.forall_mem_cons] at parts ih
      obtain ⟨subject, low, high, _⟩ := ih parts.2
      exact List.forall_mem_singleton.mpr (every_negatedIf plain _
        (every_binary plain _ (every_binary plain _ subject low)
          (every_binary plain _ subject high)))
  | inList operands ih =>
      simp only [Sql.Expr.listParts, Sql.Expr.parts, List.append_nil,
        Sql.Part.every_cons] at parts ih
      exact List.forall_mem_singleton.mpr (Expr.every_iff.mpr ⟨plain _ rfl, ih parts.2⟩)
  | isNull operands tested ih =>
      exact List.forall_mem_singleton.mpr (every_of_nullFilter plain tested)
  | call resolved visited applied ih =>
      simp only [Sql.Expr.listParts, Sql.Expr.parts, List.append_nil, Sql.Part.every_cons] at parts
      obtain ⟨found, _, _⟩ := resolveCall_eq_ok resolved
      exact List.forall_mem_singleton.mpr (every_of_applyFunction plain brought found
        (ih parts.2) applied (application parts.1 resolved visited.length_eq applied))

/-- All nodes of what is compiled have a property, if all plain nodes have it and
those that are brought in, and all results of calls do. -/
theorem Visits.every {es : List Sql.Expr} {results : List Expr}
    (application : ∀ {name count distinct star entry args result},
      resolveCall mode name count distinct star = .ok entry → args.length = count →
      applyFunction mode entry distinct args = .ok result → holds result)
    (visits : Visits mode before es results next) : ∀ e ∈ results, e.Every holds :=
  Visits.every_of_written plain brought (fun _ => application) visits fun _ _ => trivial

end Every

/-! ## Origins -/

open TripleTables.Builder (Binds Registers)

/-- An expression of a statement has been compiled to the result. -/
def CompiledFrom (mode : Mode) (source : Sql.Expr) (result : Expr) : Prop :=
  ∃ before next, Visits mode before [source] [result] next

/-- Where an expression comes from that has been gathered in a role. -/
inductive Origin (functions : FunctionTable) (query : Sql.Query) : Role → Expr → Prop
  | compiled {role : Role} {mode : Mode} {source : Sql.Expr} {e : Expr}
      (sameFunctions : mode.functions = functions)
      (aggregates : mode.allowAggregates = role.allowsAggregates)
      (aliases : mode.resolveAliases = role.resolvesAliases)
      (written : source ∈ query.exprsFor role)
      (derived : CompiledFrom mode source e) (taken : role.Takes e) :
      Origin functions query role e
  /-- A key of the order that names a result column. -/
  | shown (v : Variable) : Origin functions query .orderKey (.variable v)

variable {functions : FunctionTable} {query : Sql.Query}

/-- Everything that has been gathered has an origin. -/
def Traced (functions : FunctionTable) (query : Sql.Query) (builder : Builder) : Prop :=
  ∀ role, ∀ e ∈ builder.exprsAs role, Origin functions query role e

namespace Traced

variable {builder : Builder}

/-- Nothing is gathered that was not there. -/
theorem mono (traced : Traced functions query builder)
    (known : ∀ role, next.exprsAs role ⊆ builder.exprsAs role) : Traced functions query next :=
  fun role e member => traced role e (known role member)

/-- One more expression is gathered in a role. -/
theorem add (traced : Traced functions query builder) {role : Role} {e : Expr}
    (origin : Origin functions query role e)
    (added : ∀ other, ∀ node ∈ next.exprsAs other,
      node ∈ builder.exprsAs other ∨ other = role ∧ node = e) : Traced functions query next := by
  intro other node member
  rcases added other node member with old | ⟨rfl, rfl⟩
  · exact traced other node old
  · exact origin

theorem column (traced : Traced functions query builder) (registers : Registers builder next) :
    Traced functions query next := by
  refine traced.mono ?_
  rcases registers with @⟨_, _, _, _, _, _, _, _, _, _, _, placed⟩
  intro role e member
  cases role with
  | condition =>
      simp only [Builder.exprsAs, Builder.withColumn, List.mem_append] at member ⊢
      exact member.imp_left (Builder.mem_conditions_placeColumn placed)
  | _ => exact member

theorem columns (traced : Traced functions query builder)
    (registering : ReflTransGen Registers builder next) : Traced functions query next := by
  induction registering with
  | refl => exact traced
  | tail _ registers ih => exact ih.column registers

theorem addVar {v : Variable} {displayName : Option String}
    (traced : Traced functions query builder)
    (ran : Builder.addVar v displayName builder = .ok () next) : Traced functions query next := by
  refine traced.mono ?_
  obtain ⟨projection, _, plain, _, rfl⟩ := Builder.addVar_eq_ok ran
  intro role e member
  cases role with
  | computed => simpa [Builder.exprsAs, Builder.withProjection, plain] using member
  | _ => exact member

theorem addAllColumns {pattern : Option Name} (traced : Traced functions query builder)
    (ran : Builder.addAllColumns pattern builder = .ok () next) : Traced functions query next := by
  refine Builder.keeps_addAllColumns ?_ traced ran
  intro name _ _ _ _ traced added shown
  exact (traced.columns ((Builder.moves_addColumn name false).of_ok added)).addVar shown

theorem addComputed {mode : Mode} {source : Sql.Expr} {e : Expr} {displayName : String}
    {v : Variable} (traced : Traced functions query builder)
    (sameFunctions : mode.functions = functions) (aggregates : mode.allowAggregates = true)
    (aliases : mode.resolveAliases = false) (written : source ∈ query.exprsFor .computed)
    (derived : CompiledFrom mode source e)
    (ran : Builder.addComputed e displayName builder = .ok v next) :
    Traced functions query next := by
  obtain ⟨projection, _, _, ⟨aggregate, isComputed, rfl⟩ | ⟨noAggregate, plain, rfl⟩⟩ :=
    Builder.addComputed_eq_ok ran
  · have origin : Origin functions query .computed e :=
      .compiled sameFunctions aggregates aliases written derived aggregate
    refine traced.add origin ?_
    intro role node member
    cases role with
    | computed =>
        simpa [Builder.exprsAs, Builder.withProjection, isComputed, List.filterMap_append]
          using member
    | _ => exact .inl member
  · have origin : Origin functions query .bound e :=
      .compiled sameFunctions aggregates aliases written derived noAggregate
    refine traced.add origin ?_
    intro role node member
    cases role with
    | bound => simpa [Builder.exprsAs, Builder.withProjection] using member
    | computed =>
        left
        simpa [Builder.exprsAs, Builder.withProjection, plain, List.filterMap_append] using member
    | _ => exact .inl member

/-- One more filter of the pattern. -/
theorem addFilter {e : Expr} (traced : Traced functions query builder)
    (origin : Origin functions query .condition e) :
    Traced functions query { builder with filters := builder.filters ++ [e] } := by
  refine traced.add origin ?_
  intro role node member
  cases role with
  | condition => simpa [Builder.exprsAs, or_assoc] using member
  | _ => exact .inl member

theorem addBindingFilter {id : Nat} {e : Expr} (traced : Traced functions query builder)
    (origin : Origin functions query .condition e)
    (ran : Builder.addBindingFilter id e builder = .ok () next) : Traced functions query next := by
  rcases Builder.addBindingFilter_eq_ok ran with ⟨_, position, group, _, _, found, rfl⟩ | rfl
  · refine traced.add origin ?_
    intro role node member
    cases role with
    | condition =>
        simp only [Builder.exprsAs, Builder.withGroupFilter, List.mem_append] at member ⊢
        rcases member with inBlocks | isFilter
        · rcases Builder.mem_conditions_set inBlocks with old | inGroup
          · exact .inl (.inl old)
          · rcases List.mem_append.mp inGroup with old | new
            · exact .inl (.inl
                (Builder.mem_conditions_of_getElem? (Builder.isGroup_of_groupAt found) old))
            · exact .inr ⟨trivial, List.mem_singleton.mp new⟩
        · exact .inl (.inr isFilter)
    | _ => exact .inl member
  · exact traced.addFilter origin

theorem addGroupBy {e : Expr} (traced : Traced functions query builder)
    (origin : Origin functions query .groupKey e) :
    Traced functions query { builder with groupBy := builder.groupBy ++ [e] } := by
  refine traced.add origin ?_
  intro role node member
  cases role with
  | groupKey => simpa [Builder.exprsAs] using member
  | _ => exact .inl member

theorem addHaving {e : Expr} (traced : Traced functions query builder)
    (origin : Origin functions query .groupCondition e) :
    Traced functions query { builder with having := builder.having ++ [e] } := by
  refine traced.add origin ?_
  intro role node member
  cases role with
  | groupCondition => simpa [Builder.exprsAs] using member
  | _ => exact .inl member

theorem addOrderBy {e : Expr} (ascending : Bool) (traced : Traced functions query builder)
    (origin : Origin functions query .orderKey e) :
    Traced functions query { builder with orderBy := builder.orderBy ++ [⟨e, ascending⟩] } := by
  refine traced.add origin ?_
  intro role node member
  cases role with
  | orderKey => simpa [Builder.exprsAs] using member
  | _ => exact .inl member

end Traced

/-! ## Clauses -/

open TripleTables.Run (Keeps)

/-- An expression is compiled and put where its result may stand. -/
theorem keeps_expression {e : Sql.Expr} {store : Expr → Compile PUnit}
    (stores : ∀ result before next, Traced functions query before →
      CompiledFrom mode e result → store result before = .ok () next →
      Traced functions query next) :
    Keeps (Traced functions query) (expression mode e >>= store) := by
  intro before _ next traced ran
  obtain ⟨result, middle, compiled, stored⟩ := Run.bind_eq_ok_iff.mp ran
  have visits := visits_of_expression compiled
  exact stores result middle next (traced.columns visits.registers)
    ⟨before, middle, visits⟩ stored

/-- A part is set that holds no expression. -/
theorem keeps_outside {change : Builder → Builder}
    (same : ∀ builder role, (change builder).exprsAs role = builder.exprsAs role) :
    Keeps (Traced functions query) (ofBuild (modify change)) := by
  apply Run.keeps_modify
  intro builder traced role e member
  rw [same builder role] at member
  exact traced role e member

theorem keeps_addItem (position : Nat) {item : Sql.SelectItem}
    (listed : ∀ e ∈ item.expr?, e ∈ query.exprsFor .computed) :
    Keeps (Traced functions query) (addItem functions position item) := by
  cases item with
  | wildcard =>
      intro before _ next traced ran
      exact traced.addAllColumns (Run.ofBuild_eq_ok_iff.mp ran)
  | qualifiedWildcard parts =>
      intro before _ next traced ran
      obtain ⟨pattern, middle, named, ran⟩ := Run.bind_eq_ok_iff.mp ran
      obtain ⟨_, rfl⟩ := Run.liftExcept_eq_ok_iff.mp named
      exact traced.addAllColumns (Run.ofBuild_eq_ok_iff.mp ran)
  | expr e asName =>
      apply keeps_expression
      intro result before next traced derived ran
      split at ran
      · exact traced.addVar (Run.ofBuild_eq_ok_iff.mp ran)
      · obtain ⟨v, middle, computed, done⟩ := Run.bind_eq_ok_iff.mp ran
        cases done
        exact traced.addComputed rfl rfl rfl (listed e rfl) derived
          (Run.ofBuild_eq_ok_iff.mp computed)

theorem keeps_addItems {items : List Sql.SelectItem}
    (listed : ∀ item ∈ items, ∀ e ∈ item.expr?, e ∈ query.exprsFor .computed) (position : Nat) :
    Keeps (Traced functions query) (addItems functions position items) := by
  induction items generalizing position with
  | nil => exact .pure _
  | cons item rest ih =>
      obtain ⟨here, others⟩ := List.forall_mem_cons.mp listed
      exact .bind (keeps_addItem position here) fun _ => ih others _

/-- A condition becomes a filter. -/
theorem keeps_filter {clause : String} {e : Sql.Expr} (written : e ∈ query.exprsFor .condition) :
    Keeps (Traced functions query) (expression { functions, clause } e >>= fun condition =>
      ofBuild (Builder.addFilter condition)) := by
  apply keeps_expression
  intro condition before next traced derived ran
  cases ran
  exact traced.addFilter (.compiled rfl rfl rfl written derived trivial)

theorem keeps_addLeftConditions {conditions : List (Nat × Sql.Expr)}
    (written : ∀ entry ∈ conditions, entry.2 ∈ query.exprsFor .condition) :
    Keeps (Traced functions query) (addLeftConditions functions conditions) := by
  apply Keeps.forM
  rintro ⟨id, e⟩ member
  apply keeps_expression
  intro condition before next traced derived ran
  exact traced.addBindingFilter (.compiled rfl rfl rfl (written _ member) derived trivial)
    (Run.ofBuild_eq_ok_iff.mp ran)

/-- The key of an order names a result column or is compiled. -/
theorem keeps_addOrderKey {key : Sql.OrderItem} (written : key ∈ query.orderBy) :
    Keeps (Traced functions query) (orderKey functions key.expr >>= fun e =>
      ofBuild (Builder.addOrderBy e key.ascending)) := by
  intro before _ next traced ran
  obtain ⟨e, middle, compiled, stored⟩ := Run.bind_eq_ok_iff.mp ran
  rw [orderKey, Run.get_bind_apply] at compiled
  obtain ⟨found, _, looked, compiled⟩ := Run.bind_eq_ok_iff.mp compiled
  obtain ⟨_, rfl⟩ := Run.liftExcept_eq_ok_iff.mp looked
  cases stored
  cases found with
  | some v =>
      cases compiled
      exact traced.addOrderBy key.ascending (.shown v)
  | none =>
      have visits := visits_of_expression compiled
      refine (traced.columns visits.registers).addOrderBy key.ascending ?_
      exact .compiled rfl rfl rfl (List.mem_map_of_mem written) ⟨_, _, visits⟩ trivial

theorem keeps_afterConditions :
    Keeps (Traced functions query) (afterConditions functions query) := by
  apply Keeps.bind
  · apply Keeps.forM
    intro e member
    apply keeps_expression
    intro key before next traced derived ran
    cases ran
    exact traced.addGroupBy (.compiled rfl rfl rfl member derived trivial)
  intro _
  apply Keeps.bind
  · apply Keeps.optionForM
    intro e present
    apply keeps_expression
    intro condition before next traced derived ran
    cases ran
    exact traced.addHaving (.compiled rfl rfl rfl (Option.mem_toList.mpr present) derived trivial)
  intro _
  apply Keeps.bind (.forM fun key member => keeps_addOrderKey member)
  intro _
  apply Keeps.bind
  · exact keeps_outside fun _ role => by cases role <;> rfl
  intro _
  exact keeps_outside fun _ role => by cases role <;> rfl

theorem keeps_afterSources {conditions : Conditions}
    (inner : conditions.inner = Sql.SourceWithJoins.conditionsOn .inner query.sources)
    (left : conditions.left.map Prod.snd =
      Sql.SourceWithJoins.conditionsOn .leftOuter query.sources) :
    Keeps (Traced functions query) (afterSources functions query conditions) := by
  apply Keeps.bind
  · exact keeps_outside fun _ role => by cases role <;> rfl
  intro _
  apply Keeps.bind
  · exact keeps_addItems
      (fun item member e isExpr => List.mem_filterMap.mpr ⟨item, member, isExpr⟩) 1
  intro _
  apply Keeps.bind
  · apply Keeps.forM
    intro e member
    rw [inner] at member
    exact keeps_filter (by simp [Sql.Query.exprsFor, member])
  intro _
  apply Keeps.bind
  · apply keeps_addLeftConditions
    intro entry member
    have isLeft := List.mem_map_of_mem (f := Prod.snd) member
    rw [left] at isLeft
    simp [Sql.Query.exprsFor, isLeft]
  intro _
  apply Keeps.bind
  · apply Keeps.optionForM
    intro e present
    exact keeps_filter (by simp [Sql.Query.exprsFor, Option.mem_def.mp present])
  intro _
  exact keeps_afterConditions

/-- All that a compilation gathers comes from the statement. -/
theorem traced_of_clauses {catalog : Catalog} {defaultSchema : Option String} {useService : Bool}
    {last : Builder}
    (ran : clauses functions query { catalog, defaultSchema, useService } = .ok () last) :
    Traced functions query last := by
  obtain ⟨conditions, middle, bound, filled⟩ := exists_of_clauses ran
  have collects := collects_bindSources bound
  have kept : ∀ builder next, Binds builder next → (∀ role, builder.exprsAs role = []) →
      ∀ role, next.exprsAs role = [] := by
    intro builder next binds nothing role
    rcases binds with @⟨_, table, tableAlias, optional, triples, _, _, _⟩
    have before := nothing role
    cases role with
    | condition =>
        simpa [Builder.exprsAs, Builder.withTable, Builder.conditions_blocksWithTable] using before
    | _ => exact before
  have opened : ∀ role, middle.exprsAs role = [] :=
    Run.kept_along kept ((moves_bindSources query.sources).of_ok bound)
      fun role => by cases role <;> rfl
  have start : Traced functions query middle := by
    intro role e member
    rw [opened role] at member
    cases member
  exact keeps_afterSources collects.inner collects.left middle () last start filled

end Compile

end TripleTables
