import TripleTables.Proofs.Compile.Occurrence
import TripleTables.Proofs.Compile.Rendering

/-!
# Names of results

A written query gives every result column a variable, and introduces some of
them with `AS`: the name of a renamed column, of an aggregate, or of a value that
is bound in the pattern.  Such a query can be used if the result columns have
different variables, and if what is introduced does not occur in a triple.

Display names differ as texts, but their variables are made by cleaning, which
is lossy.  What is introduced is compared only with the variables of columns, and
only where a column is renamed.  So the names can be used exactly when the
display names differ in their words, no computed value takes the variable of a
column, and nothing takes the variable of a row or one that a template writes.
Plain names are enough for the first two and for the rows.
-/

namespace TripleTables

open TripleTables.Graph

/-! ## The names of a query -/

namespace Projection

/-- The variable of the result column. -/
def output (projection : Projection) : Variable :=
  if Sparql.isRenamed projection then Variable.ofText projection.displayName else projection.var

/-- The variable that is introduced for the result column. -/
def introduced? (projection : Projection) : Option Variable :=
  if projection.expression.isSome || Sparql.isRenamed projection then some projection.output
  else none

end Projection

/-- What the result column is written with. -/
theorem Sparql.projectionChars_eq (projection : Projection) :
    projectionChars projection =
      match projection.introduced? with
      | none => projection.output.text.toList
      | some v =>
          '(' :: (match projection.expression with
            | some expression => unwrapped (exprChars expression)
            | none => projection.var.text.toList) ++ " AS ".toList ++ v.text.toList ++ [')'] := by
  unfold projectionChars Projection.introduced? Projection.output isRenamed
  cases expression : projection.expression with
  | some e => simp
  | none =>
      by_cases same : projection.displayName = projection.var.name
      · simp [same]
      · simp [same]

/-- The variable that is bound at the element. -/
def Element.bound? : Element → Option Variable
  | .bind _ v => some v
  | _ => none

namespace Query

/-- The variables of the result columns as they are written. -/
def outputs (query : Query) : List Variable :=
  query.projections.map Projection.output

/-- The variables that get a computed value: aggregates and bound values. -/
def computedVars (query : Query) : List Variable :=
  (query.projections.filter fun projection => projection.expression.isSome).map Projection.output ++
    query.elements.filterMap Element.bound?

/-- The variables that are introduced with `AS`. -/
def introduced (query : Query) : List Variable :=
  query.projections.filterMap Projection.introduced? ++ query.elements.filterMap Element.bound?

/-- The variables of the triples. -/
def tripleVars (query : Query) : List Variable :=
  (query.elements.flatMap Element.triples).flatMap Triple.vars

/-- The result columns have different variables, and what is introduced does not
occur in a triple. -/
structure UsableNames (query : Query) : Prop where
  distinct : query.outputs.Nodup
  fresh : ∀ v ∈ query.introduced, v ∉ query.tripleVars

instance : DecidablePred UsableNames := fun query =>
  decidable_of_iff (query.outputs.Nodup ∧ ∀ v ∈ query.introduced, v ∉ query.tripleVars)
    ⟨fun ⟨distinct, fresh⟩ => ⟨distinct, fresh⟩, fun usable => ⟨usable.distinct, usable.fresh⟩⟩

end Query

/-! ## Where names come from -/

namespace Builder

/-- A result column shows the variable of its display name or of a column; an
aggregate shows the first, and every bound variable is shown so. -/
structure Named (builder : Builder) : Prop where
  shown : ∀ projection ∈ builder.projections,
    projection.var = Variable.ofText projection.displayName ∨
      projection.expression = none ∧ projection.var ∈ builder.columnVars
  bound : ∀ entry ∈ builder.binds, ∃ projection ∈ builder.projections,
    entry.2 = Variable.ofText projection.displayName

namespace Named

variable {builder next : Builder}

theorem empty (catalog : Catalog) (defaultSchema : Option String) (useService : Bool) :
    Named { catalog, defaultSchema, useService } :=
  ⟨by simp, by simp⟩

/-- What shows nothing, binds no variable and forgets no column keeps the
names. -/
theorem mono (named : Named builder)
    (same : next.projections = builder.projections ∧ next.binds = builder.binds)
    (more : builder.columnVars ⊆ next.columnVars) : Named next := by
  constructor
  · intro projection member
    rw [same.1] at member
    exact (named.shown projection member).imp_right fun known => ⟨known.1, more known.2⟩
  · rw [same.1, same.2]
    exact named.bound

theorem table (named : Named builder) (binds : Binds builder next) : Named next := by
  cases binds
  exact named.mono ⟨rfl, rfl⟩ (List.Subset.refl _)

theorem settle (named : Named builder) (settles : Settles builder next) : Named next := by
  refine named.mono settles.shown_eq ?_
  cases settles with
  | column registers => exact (columnVars_of_registers registers).1
  | condition condition bound grouped found => exact List.Subset.refl _
  | outside => exact List.Subset.refl _

theorem settled (named : Named builder) (settling : Relation.ReflTransGen Settles builder next) :
    Named next :=
  Run.kept_along (fun _ _ settles named => named.settle settles) settling named

theorem projection (named : Named builder) (projection : Projection)
    (shown : projection.var = Variable.ofText projection.displayName ∨
      projection.expression = none ∧ projection.var ∈ builder.columnVars) :
    Named (builder.withProjection projection) := by
  constructor
  · exact List.forall_mem_append.mpr ⟨named.shown, List.forall_mem_singleton.mpr shown⟩
  · intro entry member
    obtain ⟨other, isOther, same⟩ := named.bound entry member
    exact ⟨other, List.mem_append_left _ isOther, same⟩

theorem addColumn (named : Named builder) {name : Name} {optional : Bool} {v : Variable}
    (ran : addColumn name optional builder = .ok v next) : Named next :=
  named.settled (((moves_addColumn name optional).mono fun _ _ => .column).of_ok ran)

theorem addVar (named : Named builder) {v : Variable} {displayName : Option String}
    (known : v ∈ builder.columnVars) (ran : addVar v displayName builder = .ok () next) :
    Named next := by
  obtain ⟨projection, rfl, plain, _, rfl⟩ := addVar_eq_ok ran
  exact named.projection projection (.inr ⟨plain, known⟩)

theorem addComputed (named : Named builder) {e : Expr} {displayName : String} {v : Variable}
    (ran : addComputed e displayName builder = .ok v next) : Named next := by
  obtain ⟨projection, shown, _, ⟨_, _, rfl⟩ | ⟨_, _, rfl⟩⟩ := addComputed_eq_ok ran
  · exact named.projection projection (.inl shown)
  · -- The bound variable is that of the column that is shown with it.
    constructor
    · exact (named.projection projection (.inl shown)).shown
    · intro entry member
      rcases List.mem_append.mp member with old | new
      · exact (named.projection projection (.inl shown)).bound entry old
      · rw [List.mem_singleton.mp new]
        exact ⟨projection, by simp [withProjection], shown⟩

theorem addAllColumns {pattern : Option Name} (named : Named builder)
    (ran : addAllColumns pattern builder = .ok () next) : Named next := by
  refine keeps_addAllColumns ?_ named ran
  intro _ _ _ _ _ named added shown
  obtain ⟨column, registered, rfl⟩ := exists_column_of_addColumn added
  exact (named.addColumn added).addVar (List.mem_map_of_mem registered) shown

end Named

/-- Every result column is written with the variable of its display name. -/
theorem Named.output_eq {builder : Builder} (named : Named builder)
    (consistent : Consistent builder) {projection : Projection}
    (member : projection ∈ builder.projections) :
    projection.output = Variable.ofText projection.displayName := by
  unfold Projection.output
  split
  · rfl
  · rename_i kept
    rcases named.shown projection member with same | ⟨plain, known⟩
    · exact same
    · -- The column keeps its name, and the name of its variable is clean already.
      have sameName : projection.displayName = projection.var.name := by
        simpa [Sparql.isRenamed, plain] using kept
      obtain ⟨registration, _, isVar⟩ := consistent.mem_columnVars_iff.mp known
      rw [sameName, ← isVar]
      exact (Variable.ofText_name_ofText _).symm

/-! ## Plain names -/

variable {catalog : Catalog} {builder : Builder} {v : Variable}

theorem Consistent.exists_binding_of_mem_rowVars (consistent : Consistent builder)
    (isRow : v ∈ builder.rowVars) : ∃ binding ∈ builder.bindings, binding.subject = v := by
  obtain ⟨use, used, _, rfl⟩ := mem_rowVars_iff.mp isRow
  rcases List.mem_append.mp used with own | ofColumn
  · obtain ⟨binding, bound, isOwn⟩ := List.mem_flatMap.mp own
    obtain ⟨template, _, rfl⟩ := List.mem_map.mp isOwn
    exact ⟨binding, bound, rfl⟩
  · obtain ⟨registration, registered, isUse⟩ := List.mem_filterMap.mp ofColumn
    obtain ⟨template, _, rfl⟩ := Option.map_eq_some_iff.mp isUse
    obtain ⟨_, _, _, bound, _⟩ := consistent.stands registered
    exact ⟨registration.binding, List.mem_of_getElem? bound, rfl⟩

theorem Consistent.exists_column_of_mem_columnVars (consistent : Consistent builder)
    (isColumn : v ∈ builder.columnVars) :
    ∃ binding ∈ builder.bindings, ∃ column ∈ binding.table.columns,
      binding.columnVariable column = v := by
  obtain ⟨registration, registered, rfl⟩ := consistent.mem_columnVars_iff.mp isColumn
  obtain ⟨_, _, _, bound, declared, _⟩ := consistent.stands registered
  exact ⟨registration.binding, List.mem_of_getElem? bound, registration.column,
    List.mem_of_getElem? declared, rfl⟩

/-- A plain text is one word.  The name of a row has two words and that of a
column three, if they are plain. -/
theorem Bound.not_mem_of_plain (bound : Bound catalog builder) (consistent : Consistent builder)
    (plain : builder.PlainNames) {text : String} (plainText : Variable.Plain text.toList) :
    Variable.ofText text ∉ builder.columnVars ∧ Variable.ofText text ∉ builder.rowVars := by
  constructor
  · intro isColumn
    obtain ⟨binding, isBound, column, declared, same⟩ :=
      consistent.exists_column_of_mem_columnVars isColumn
    obtain ⟨_, _, _, _, _, words⟩ := (plain binding isBound).words_columnName declared
    have sameWords : (binding.columnName column.shortName).words = [text.toList] :=
      ((Variable.ofText_eq_iff _ _).mp same).trans plainText.words
    simp [words] at sameWords
  · intro isRow
    obtain ⟨binding, isBound, same⟩ := consistent.exists_binding_of_mem_rowVars isRow
    obtain ⟨_, _, _, words⟩ :=
      (plain binding isBound).words_name (bound.columnless binding isBound)
    have sameWords : binding.name.words = [text.toList] :=
      ((Variable.ofText_eq_iff _ _).mp same).trans plainText.words
    simp [words] at sameWords

end Builder

namespace Compile

open TripleTables.Builder (Named Binds)

variable {functions : FunctionTable} {before next : Builder}

/-! ## The select list -/

theorem named_of_addItem {position : Nat} {item : Sql.SelectItem} (named : Named before)
    (ran : addItem functions position item before = .ok () next) : Named next := by
  cases item with
  | wildcard => exact named.addAllColumns (Run.ofBuild_eq_ok_iff.mp ran)
  | qualifiedWildcard parts =>
      obtain ⟨pattern, middle, isPattern, ran⟩ := Run.bind_eq_ok_iff.mp ran
      obtain ⟨_, rfl⟩ := Run.liftExcept_eq_ok_iff.mp isPattern
      exact named.addAllColumns (Run.ofBuild_eq_ok_iff.mp ran)
  | expr e asName =>
      obtain ⟨result, middle, compiled, ran⟩ := Run.bind_eq_ok_iff.mp ran
      have visits := visits_of_expression compiled
      have named := named.settled ((settles_expression e).of_ok compiled)
      split at ran
      · have known := visits.mem_scope_of_variable (List.mem_singleton_self _)
        rw [Mode.scope_of_columns rfl] at known
        exact named.addVar known (Run.ofBuild_eq_ok_iff.mp ran)
      · obtain ⟨v, last, computed, done⟩ := Run.bind_eq_ok_iff.mp ran
        cases done
        exact named.addComputed (Run.ofBuild_eq_ok_iff.mp computed)

theorem named_of_addItems {position : Nat} {items : List Sql.SelectItem} (named : Named before)
    (ran : addItems functions position items before = .ok () next) : Named next := by
  induction items generalizing position before with
  | nil =>
      cases ran
      exact named
  | cons item rest ih =>
      obtain ⟨_, middle, first, ran⟩ := Run.bind_eq_ok_iff.mp ran
      exact ih (named_of_addItem named first) ran

/-- All that a compilation shows is named. -/
theorem named_of_clauses {query : Sql.Query} {catalog : Catalog} {defaultSchema : Option String}
    {useService : Bool} {last : Builder}
    (ran : clauses functions query { catalog, defaultSchema, useService } = .ok () last) :
    Named last := by
  obtain ⟨conditions, middle, bound, filled⟩ := exists_of_clauses ran
  have binding := (moves_bindSources query.sources).of_ok bound
  have namedMiddle : Named middle :=
    Run.kept_along (fun _ _ binds named => named.table binds) binding (.empty _ _ _)
  rw [afterSources_eq] at filled
  obtain ⟨_, started, distinct, filled⟩ := Run.bind_eq_ok_iff.mp filled
  obtain ⟨_, listed, shown, filled⟩ := Run.bind_eq_ok_iff.mp filled
  have namedStarted : Named started := by
    cases distinct
    exact { namedMiddle with }
  have named := named_of_addItems namedStarted shown
  exact named.settled ((settles_afterItems functions query conditions).of_ok filled)

end Compile

/-! ## Compiled queries -/

namespace Query

variable {query : Query} {v : Variable}

/-- What is introduced is computed, or is the new name of a column. -/
theorem computed_or_renamed_of_mem_introduced (member : v ∈ query.introduced) :
    v ∈ query.computedVars ∨
      ∃ projection ∈ query.projections, Sparql.isRenamed projection = true ∧
        Variable.ofText projection.displayName = v := by
  rcases List.mem_append.mp member with isShown | isBound
  · obtain ⟨projection, shown, isIntroduced⟩ := List.mem_filterMap.mp isShown
    unfold Projection.introduced? at isIntroduced
    split at isIntroduced
    · rename_i reason
      cases isIntroduced
      rcases Bool.or_eq_true_iff.mp reason with computed | renamed
      · refine .inl (List.mem_append_left _ (List.mem_map_of_mem ?_))
        exact List.mem_filter.mpr ⟨shown, computed⟩
      · exact .inr ⟨projection, shown, renamed, by rw [Projection.output, if_pos renamed]⟩
    · contradiction
  · exact .inl (List.mem_append_right _ isBound)

theorem computedVars_subset_introduced : query.computedVars ⊆ query.introduced := by
  intro v member
  rcases List.mem_append.mp member with isShown | isBound
  · obtain ⟨projection, kept, rfl⟩ := List.mem_map.mp isShown
    obtain ⟨shown, computed⟩ := List.mem_filter.mp kept
    refine List.mem_append_left _ (List.mem_filterMap.mpr ⟨projection, shown, ?_⟩)
    simp [Projection.introduced?, computed]
  · exact List.mem_append_right _ isBound

end Query

namespace Builder

variable {builder : Builder} {result : Query} {v : Variable}

theorem mem_tripleVars_iff (placed : Placed builder) (consistent : Consistent builder)
    (built : builder.build = .ok result) :
    v ∈ result.tripleVars ↔
      v ∈ result.columnVars ∨ v ∈ builder.rowVars ∨ v ∈ builder.writtenVars := by
  obtain ⟨elements, columns, _⟩ := parts_of_build built
  have triples : result.elements.flatMap Element.triples =
      builder.blocks.flatMap Block.allTriples := by
    rw [elements, elements_eq, List.flatMap_append, flatMap_triples_elements]
    simp [List.flatMap_map, Element.triples]
  have columnVars : result.columnVars = builder.columnVars := by
    rw [Query.columnVars, columns, Builder.columnVars]
  rw [Query.tripleVars, triples, columnVars, placed.mem_vars_iff consistent]

namespace Named

variable (named : Named builder) (consistent : Consistent builder)
  (built : builder.build = .ok result)
include named consistent built

theorem outputs_eq :
    result.outputs =
      result.projections.map fun projection => Variable.ofText projection.displayName := by
  refine List.map_congr_left fun projection member => ?_
  rw [(parts_of_build built).2.2.1] at member
  exact named.output_eq consistent member

/-- The result columns have different variables exactly when their display
names differ in their words. -/
theorem nodup_outputs_iff :
    result.outputs.Nodup ↔
      (result.projections.map fun projection =>
        Variable.words projection.displayName.toList).Nodup := by
  rw [named.outputs_eq consistent built]
  simp only [List.Nodup, List.pairwise_map, ne_eq, Variable.ofText_eq_iff]

/-- What is introduced is the variable of a display name. -/
theorem exists_displayName (member : v ∈ result.introduced) :
    ∃ projection ∈ result.projections, Variable.ofText projection.displayName = v := by
  obtain ⟨elements, _, projections, _⟩ := parts_of_build built
  rw [projections]
  rcases List.mem_append.mp member with isShown | isBound
  · obtain ⟨projection, shown, isIntroduced⟩ := List.mem_filterMap.mp isShown
    rw [projections] at shown
    refine ⟨projection, shown, ?_⟩
    rw [← named.output_eq consistent shown]
    unfold Projection.introduced? at isIntroduced
    split at isIntroduced
    · exact Option.some.inj isIntroduced
    · contradiction
  · have isBind : v ∈ builder.binds.map Prod.snd := by
      rw [elements, elements_eq] at isBound
      simpa [Element.bound?, List.filterMap_map] using isBound
    obtain ⟨entry, isEntry, rfl⟩ := List.mem_map.mp isBind
    obtain ⟨projection, shown, same⟩ := named.bound entry isEntry
    exact ⟨projection, shown, same.symm⟩

/-- The names can be used exactly when the display names differ in their words,
no computed value takes the variable of a column, and nothing takes the variable
of a row or one that a template writes. -/
theorem usable_iff (placed : Placed builder)
    (free : ∀ projection ∈ result.projections, ¬ Sparql.Clashes result.columns projection) :
    result.UsableNames ↔
      (result.projections.map fun projection =>
        Variable.words projection.displayName.toList).Nodup ∧
      (∀ v ∈ result.computedVars, v ∉ result.columnVars) ∧
      ∀ v ∈ result.introduced, v ∉ builder.rowVars ∧ v ∉ builder.writtenVars := by
  have fresh_iff : ∀ v, v ∉ result.tripleVars ↔
      v ∉ result.columnVars ∧ v ∉ builder.rowVars ∧ v ∉ builder.writtenVars := by
    intro v
    rw [mem_tripleVars_iff placed consistent built, not_or, not_or]
  rw [← named.nodup_outputs_iff consistent built]
  constructor
  · intro usable
    refine ⟨usable.distinct, ?_, ?_⟩
    · intro v computed
      have introduced := Query.computedVars_subset_introduced computed
      exact ((fresh_iff v).mp (usable.fresh v introduced)).1
    · intro v introduced
      exact ((fresh_iff v).mp (usable.fresh v introduced)).2
  · rintro ⟨distinct, computedFresh, othersFresh⟩
    refine ⟨distinct, ?_⟩
    intro v introduced
    refine (fresh_iff v).mpr ⟨?_, othersFresh v introduced⟩
    rcases Query.computed_or_renamed_of_mem_introduced introduced with
      computed | ⟨projection, shown, renamed, rfl⟩
    · exact computedFresh v computed
    · -- A column that is renamed so would clash.
      exact fun isColumn => free projection shown ⟨renamed, isColumn⟩

end Named

/-- Display names that are plain differ in their words. -/
theorem nodup_words_of_plain (consistent : Consistent builder)
    (built : builder.build = .ok result)
    (plain : ∀ projection ∈ result.projections, Variable.Plain projection.displayName.toList) :
    (result.projections.map fun projection =>
      Variable.words projection.displayName.toList).Nodup := by
  have distinct : (result.projections.map Projection.displayName).Nodup := by
    rw [(parts_of_build built).2.2.1, ← consistent.shown]
    exact consistent.distinctNames
  have words : (result.projections.map fun projection =>
      Variable.words projection.displayName.toList) =
        (result.projections.map Projection.displayName).map fun name => [name.toList] := by
    rw [List.map_map]
    exact List.map_congr_left fun projection member => (plain projection member).words
  rw [words]
  exact distinct.map fun first second same => String.toList_inj.mp (List.singleton_inj.mp same)

end Builder

/-- The names of a written query can be used exactly when its display names
differ in their words, no computed value takes the variable of a column, and
nothing takes the variable of a row or one that a template writes.  If all names
are plain, only what templates write can be in the way. -/
theorem Compiler.usableNames_iff {compiler : Compiler} {query : Sql.Query} {result : Query}
    {text : String} (compiled : compiler.compile query = .ok result)
    (written : Sparql.render result = .ok text) :
    ∃ builder, Compile.clauses compiler.functions query compiler.start = .ok () builder ∧
      builder.build = .ok result ∧
      (result.UsableNames ↔
        (result.projections.map fun projection =>
          Variable.words projection.displayName.toList).Nodup ∧
        (∀ v ∈ result.computedVars, v ∉ result.columnVars) ∧
        ∀ v ∈ result.introduced, v ∉ builder.rowVars ∧ v ∉ builder.writtenVars) ∧
      (builder.PlainNames →
        (∀ projection ∈ result.projections, Variable.Plain projection.displayName.toList) →
        (∀ v ∈ result.introduced, v ∉ builder.writtenVars) → result.UsableNames) := by
  obtain ⟨builder, ran, built⟩ := compiler.exists_of_compile compiled
  obtain ⟨middle, binding, filling⟩ := Compile.phases_of_clauses ran
  obtain ⟨consistent, placed⟩ := Builder.placed_of_phases binding filling
  have named := Compile.named_of_clauses ran
  have usable_iff :=
    named.usable_iff consistent built placed (Sparql.not_clashes_of_render written)
  refine ⟨builder, ran, built, usable_iff, ?_⟩
  intro plain plainShown unwritten
  have apart : ∀ v ∈ result.introduced, v ∉ builder.columnVars ∧ v ∉ builder.rowVars := by
    intro v introduced
    obtain ⟨projection, shown, rfl⟩ := named.exists_displayName consistent built introduced
    exact (Compile.bound_of_clauses ran).not_mem_of_plain consistent plain
      (plainShown projection shown)
  refine usable_iff.mpr ⟨Builder.nodup_words_of_plain consistent built plainShown, ?_, ?_⟩
  · intro v computed
    rw [Query.columnVars, (Builder.parts_of_build built).2.1]
    exact (apart v (Query.computedVars_subset_introduced computed)).1
  · intro v introduced
    exact ⟨(apart v introduced).2, unwritten v introduced⟩

/-- The statement `SELECT x AS first, x + 1 AS second FROM foo`. -/
def incremented (first second : String) : Sql.Query :=
  { distinct := false
    items :=
      [.expr (.column ["x"]) (some first),
       .expr (.binary .plus (.column ["x"]) (.literal (.integer 1))) (some second)]
    sources := [⟨.table ["foo"] none, []⟩]
    condition := none
    groupBy := []
    having := none
    orderBy := []
    limit := none
    offset := none }

theorem Sparql.exists_render_of_isOk {query : Query} (done : (queryChars query).isOk = true) :
    ∃ text, render query = .ok text := by
  refine Run.exists_map_eq_ok_iff.mpr ?_
  cases written : queryChars query with
  | ok chars => exact ⟨chars, rfl⟩
  | error error =>
      rw [written] at done
      cases done

theorem usableNames_incremented :
    ∃ catalog result text, classified.build = .ok catalog ∧
      ({ catalog } : Compiler).compile (incremented "old" "new") = .ok result ∧
      Sparql.render result = .ok text ∧ result.introduced.length = 2 ∧ result.UsableNames := by
  have checked : ∃ catalog, classified.build = .ok catalog ∧
      (∃ result, ({ catalog } : Compiler).compile (incremented "old" "new") = .ok result ∧
        (Sparql.queryChars result).isOk = true ∧ result.introduced.length = 2 ∧
        ∀ projection ∈ result.projections, Variable.Plain projection.displayName.toList) ∧
      ∃ builder, Compile.clauses ({ catalog } : Compiler).functions (incremented "old" "new")
          ({ catalog } : Compiler).start = .ok () builder ∧
        builder.PlainNames ∧ builder.writtenVars = [] := by
    decide +kernel
  obtain ⟨catalog, built, ⟨result, compiled, rendered, introduced, plainShown⟩,
    builder, ran, plain, unwritten⟩ := checked
  obtain ⟨text, written⟩ := Sparql.exists_render_of_isOk rendered
  obtain ⟨other, ranToo, _, _, usable⟩ := Compiler.usableNames_iff compiled written
  have same : other = builder := (EStateM.Result.ok.inj (ranToo.symm.trans ran)).2
  subst same
  exact ⟨catalog, result, text, built, compiled, written, introduced,
    usable plain plainShown (by simp [unwritten])⟩

/-- Names that differ are cleaned to one, a column takes the name of its row,
and a computed value takes that of its column: none of these is refused. -/
theorem not_usableNames_incremented :
    ∃ catalog, classified.build = .ok catalog ∧
      (∃ result, ({ catalog } : Compiler).compile (incremented "a b" "a_b") = .ok result ∧
        (∃ text, Sparql.render result = .ok text) ∧ ¬ result.outputs.Nodup) ∧
      (∃ result, ({ catalog } : Compiler).compile (incremented "s·foo" "new") = .ok result ∧
        (∃ text, Sparql.render result = .ok text) ∧
        ∃ v ∈ result.introduced, v ∈ result.tripleVars) ∧
      ∃ result, ({ catalog } : Compiler).compile (incremented "old" "s·foo·x") = .ok result ∧
        (∃ text, Sparql.render result = .ok text) ∧
        ∃ v ∈ result.introduced, v ∈ result.tripleVars := by
  have checked : ∃ catalog, classified.build = .ok catalog ∧
      (∃ result, ({ catalog } : Compiler).compile (incremented "a b" "a_b") = .ok result ∧
        (Sparql.queryChars result).isOk = true ∧ ¬ result.outputs.Nodup) ∧
      (∃ result, ({ catalog } : Compiler).compile (incremented "s·foo" "new") = .ok result ∧
        (Sparql.queryChars result).isOk = true ∧
        ∃ v ∈ result.introduced, v ∈ result.tripleVars) ∧
      ∃ result, ({ catalog } : Compiler).compile (incremented "old" "s·foo·x") = .ok result ∧
        (Sparql.queryChars result).isOk = true ∧
        ∃ v ∈ result.introduced, v ∈ result.tripleVars := by
    decide +kernel
  obtain ⟨catalog, built, ⟨same, isSame, rendered, repeated⟩, ⟨row, isRow, rowRendered, taken⟩,
    column, isColumn, columnRendered, captured⟩ := checked
  exact ⟨catalog, built, ⟨same, isSame, Sparql.exists_render_of_isOk rendered, repeated⟩,
    ⟨row, isRow, Sparql.exists_render_of_isOk rowRendered, taken⟩,
    column, isColumn, Sparql.exists_render_of_isOk columnRendered, captured⟩

end TripleTables
