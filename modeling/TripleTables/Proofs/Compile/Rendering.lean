import TripleTables.Proofs.Compile.Failures
import TripleTables.Proofs.Sparql.Rendering
import TripleTables.Proofs.Sql.RoundTrip

/-!
# Compiled queries can be written

What a text is compiled to can be written, unless a result column takes the name
of a column.  Four facts meet: a text that is read selects something; a table of
a checked catalog has columns, so that a star stands for at least one; what is
shown stays shown; and a builder that is closed leaves out the groups that hold
nothing.
-/

namespace TripleTables

open TripleTables.Graph
open Relation

namespace Builder

variable {builder next : Builder}

/-- The elements of the pattern hold no group without content. -/
theorem isEmpty_of_mem_elements {group : OptionalGroup}
    (member : .block (.optional group) ∈ builder.elements) : group.isEmpty = false := by
  rw [elements_eq] at member
  rcases List.mem_append.mp member with inBlocks | inOthers
  · obtain ⟨block, kept, same⟩ := List.mem_map.mp inBlocks
    cases same
    simpa [Block.isVoid] using (List.mem_filter.mp kept).2
  · simp at inOthers

/-! ## Something is shown -/

theorem projections_withProjection_ne_nil (projection : Projection) :
    (builder.withProjection projection).projections ≠ [] := by
  simp [withProjection]

/-- What is shown stays shown. -/
theorem Fills.projections_ne_nil (fills : Fills builder next) (shown : builder.projections ≠ []) :
    next.projections ≠ [] := by
  cases fills with
  | column registers =>
      cases registers
      exact shown
  | projection projection free => exact projections_withProjection_ne_nil projection
  | condition condition bound grouped found => exact shown
  | outside => exact shown

theorem projections_ne_nil_of_fills (filling : ReflTransGen Fills builder next)
    (shown : builder.projections ≠ []) : next.projections ≠ [] := by
  induction filling with
  | refl => exact shown
  | tail _ fills ih => exact fills.projections_ne_nil ih

theorem projections_ne_nil_of_addVar {v : Variable} {displayName : Option String}
    (ran : addVar v displayName builder = .ok () next) : next.projections ≠ [] := by
  obtain ⟨projection, _, _, _, rfl⟩ := addVar_eq_ok ran
  exact projections_withProjection_ne_nil projection

theorem projections_ne_nil_of_addComputed {expr : Expr} {displayName : String} {v : Variable}
    (ran : addComputed expr displayName builder = .ok v next) : next.projections ≠ [] := by
  obtain ⟨projection, _, _, ⟨_, _, rfl⟩ | ⟨_, _, rfl⟩⟩ := addComputed_eq_ok ran
  · exact projections_withProjection_ne_nil projection
  · exact projections_withProjection_ne_nil projection

theorem projections_ne_nil_of_addEach {names : List Name} (nonempty : names ≠ [])
    (ran : addEach names builder = .ok () next) : next.projections ≠ [] := by
  cases names with
  | nil => contradiction
  | cons name rest =>
      obtain ⟨v, registered, _, ran⟩ := Run.bind_eq_ok_iff.mp ran
      obtain ⟨_, shown, showing, ran⟩ := Run.bind_eq_ok_iff.mp ran
      exact projections_ne_nil_of_fills ((moves_addEach rest).of_ok ran)
        (projections_ne_nil_of_addVar showing)

/-- Every binding has columns. -/
def HasColumns (builder : Builder) : Prop :=
  ∀ binding ∈ builder.bindings, binding.table.columns ≠ []

/-- A star stands for at least one column, if something is bound and every
binding has columns. -/
theorem starTargets_flatMap_ne_nil {pattern : Option Name} {targets : List Name}
    (bound : builder.bindings ≠ []) (columns : builder.HasColumns)
    (found : builder.starTargets pattern = .ok targets) :
    targets.flatMap builder.columnsOfBinding ≠ [] := by
  -- One target is the name of a binding, and its columns are among those found.
  obtain ⟨binding, isBound, isTarget⟩ :
      ∃ binding ∈ builder.bindings, binding.name ∈ targets := by
    unfold starTargets at found
    dsimp only at found
    split at found
    · cases found
      obtain ⟨binding, rest, split⟩ := List.exists_cons_of_ne_nil bound
      exact ⟨binding, by simp [split], by simp [split]⟩
    · split at found
      · contradiction
      · rename_i name only
        cases found
        have covered := List.mem_singleton_self name
        rw [← only] at covered
        obtain ⟨binding, isBound, rfl⟩ := List.mem_map.mp (List.mem_filter.mp covered).1
        exact ⟨binding, isBound, List.mem_singleton_self _⟩
      · contradiction
  have declares : builder.columnsOfBinding binding.name ≠ [] := by
    unfold columnsOfBinding
    split
    · rename_i other isOther
      have declared := columns other (List.mem_of_find?_eq_some isOther)
      simpa [Binding.columnNames] using declared
    · rename_i missing
      have absent := List.find?_eq_none.mp missing binding isBound
      simp at absent
  intro nothing
  exact declares (List.flatMap_eq_nil_iff.mp nothing _ isTarget)

theorem projections_ne_nil_of_addAllColumns {pattern : Option Name}
    (bound : builder.bindings ≠ []) (columns : builder.HasColumns)
    (ran : addAllColumns pattern builder = .ok () next) : next.projections ≠ [] := by
  cases found : builder.starTargets pattern with
  | error error => simp [addAllColumns, found] at ran
  | ok targets =>
      simp only [addAllColumns, Run.get_bind_apply, found, Run.build_liftExcept_ok,
        pure_bind] at ran
      exact projections_ne_nil_of_addEach (starTargets_flatMap_ne_nil bound columns found) ran

end Builder

namespace Compile

variable {builder next : Builder} {functions : FunctionTable}

theorem projections_ne_nil_of_addItem {position : Nat} {item : Sql.SelectItem}
    (bound : builder.bindings ≠ []) (columns : builder.HasColumns)
    (ran : addItem functions position item builder = .ok () next) : next.projections ≠ [] := by
  cases item with
  | wildcard =>
      exact Builder.projections_ne_nil_of_addAllColumns bound columns
        (Run.ofBuild_eq_ok_iff.mp ran)
  | qualifiedWildcard parts =>
      obtain ⟨pattern, middle, named, ran⟩ := Run.bind_eq_ok_iff.mp ran
      obtain ⟨_, rfl⟩ := Run.liftExcept_eq_ok_iff.mp named
      exact Builder.projections_ne_nil_of_addAllColumns bound columns
        (Run.ofBuild_eq_ok_iff.mp ran)
  | expr e asName =>
      obtain ⟨compiled, middle, _, ran⟩ := Run.bind_eq_ok_iff.mp ran
      split at ran
      · exact Builder.projections_ne_nil_of_addVar (Run.ofBuild_eq_ok_iff.mp ran)
      · obtain ⟨v, last, added, done⟩ := Run.bind_eq_ok_iff.mp ran
        cases done
        exact Builder.projections_ne_nil_of_addComputed (Run.ofBuild_eq_ok_iff.mp added)

theorem projections_ne_nil_of_addItems {position : Nat} {items : List Sql.SelectItem}
    (nonempty : items ≠ []) (bound : builder.bindings ≠ []) (columns : builder.HasColumns)
    (ran : addItems functions position items builder = .ok () next) : next.projections ≠ [] := by
  cases items with
  | nil => contradiction
  | cons item rest =>
      obtain ⟨_, middle, first, ran⟩ := Run.bind_eq_ok_iff.mp ran
      exact Builder.projections_ne_nil_of_fills ((fills_addItems functions rest _).of_ok ran)
        (projections_ne_nil_of_addItem bound columns first)

/-- The bindings of a compilation are bindings of its catalog. -/
theorem bound_of_clauses {compiler : Compiler} {query : Sql.Query} {last : Builder}
    (ran : clauses compiler.functions query compiler.start = .ok () last) :
    Builder.Bound compiler.catalog last := by
  obtain ⟨middle, binding, filling⟩ := phases_of_clauses ran
  have opened : Builder.Bound compiler.catalog middle :=
    Run.kept_along (fun _ _ binds bound => bound.change (.table binds)) binding
      compiler.reachable_start.bound
  exact Run.kept_along (fun _ _ fills bound => bound.change (.fill fills)) filling opened

end Compile

namespace Compiler

/-- A compiled query shows something, if the statement selects something and no
table is without columns. -/
theorem projections_ne_nil_of_compile {compiler : Compiler} {query : Sql.Query} {result : Query}
    (columns : ∀ table ∈ compiler.catalog.tables, table.columns ≠ [])
    (items : query.items ≠ []) (compiled : compiler.compile query = .ok result) :
    result.projections ≠ [] := by
  obtain ⟨last, ran, built⟩ := exists_of_compile compiled
  obtain ⟨conditions, middle, bound, filled⟩ := Compile.exists_of_clauses ran
  have sameLast :=
    Builder.bindings_of_fills ((Compile.fills_afterSources _ query conditions).of_ok filled)
  rw [Compile.afterSources_eq] at filled
  obtain ⟨_, started, distinct, filled⟩ := Run.bind_eq_ok_iff.mp filled
  obtain ⟨_, listed, itemsRan, filled⟩ := Run.bind_eq_ok_iff.mp filled
  have same : started.bindings = middle.bindings := by
    cases distinct
    rfl
  have someBinding : started.bindings ≠ [] := by
    intro nothing
    simp [Builder.build, sameLast, ← same, nothing] at built
  have hasColumns : started.HasColumns := by
    intro binding isBound
    rw [same, ← sameLast] at isBound
    exact columns _ ((Compile.bound_of_clauses ran).tables binding isBound)
  have shown := Compile.projections_ne_nil_of_addItems items someBinding hasColumns itemsRan
  rw [(Builder.parts_of_build built).2.2.1]
  exact Builder.projections_ne_nil_of_fills ((Compile.fills_afterItems _ _ _).of_ok filled) shown

/-- What a text is compiled to over a checked catalog can be written, unless a
result column is renamed to the variable of a column; then that is said. -/
theorem render_of_compileText {definition : CatalogDefinition} {catalog : Catalog}
    (checked : definition.build = .ok catalog) {compiler : Compiler}
    (sameCatalog : compiler.catalog = catalog) {text : String} {result : Query}
    (compiled : compiler.compileText text = .ok result) :
    ((∃ written, Sparql.render result = .ok written) ∧
        ∀ projection ∈ result.projections, ¬ Sparql.Clashes result.columns projection) ∨
      ∃ projection ∈ result.projections, Sparql.Clashes result.columns projection ∧
        Sparql.render result = .error (.invalidDisplayName projection.displayName) := by
  obtain ⟨query, read, compiled⟩ := exists_of_compileText compiled
  have items : query.items ≠ [] := (Sql.regular_of_parse read).items_ne_nil
  have shown : result.projections ≠ [] := by
    subst sameCatalog
    exact projections_ne_nil_of_compile (CatalogDefinition.columns_ne_nil_of_build checked) items
      compiled
  obtain ⟨builder, _, built⟩ := exists_of_compile compiled
  have elements := Builder.elements_of_build built
  cases written : Sparql.render result with
  | ok text => exact .inl ⟨⟨text, rfl⟩, Sparql.not_clashes_of_render written⟩
  | error error =>
      rcases Sparql.render_eq_error written with
        ⟨_, nothing⟩ | ⟨projection, member, clashes, rfl⟩ | ⟨_, group, member, empty⟩
      · exact absurd nothing shown
      · exact .inr ⟨projection, member, clashes, rfl⟩
      · rw [elements] at member
        rw [Builder.isEmpty_of_mem_elements member] at empty
        cases empty

end Compiler

/-- The statement `SELECT x AS name, p FROM foo`. -/
def renamedFirst (name : String) : Sql.Query :=
  { distinct := false
    items := [.expr (.column ["x"]) (some name), .expr (.column ["p"]) none]
    sources := [⟨.table ["foo"] none, []⟩]
    condition := none
    groupBy := []
    having := none
    orderBy := []
    limit := none
    offset := none }

theorem parse_print_renamedFirst (name : String) :
    Sql.parse (Sql.print (renamedFirst name)) = .ok (renamedFirst name) := by
  apply Sql.parse_print
  simp [renamedFirst, Sql.Query.Regular, Sql.Query.parts, Sql.SelectItem.parts,
    Sql.SourceWithJoins.parts, Sql.Source.parts, Sql.Expr.parts, Sql.Part.Regular,
    Sql.Expr.Grouped, Sql.Expr.Spelled]

/-- A plain name can be written; the name of the other column's variable is
refused. -/
theorem render_renamedFirst :
    ∃ catalog plain captured, classified.build = .ok catalog ∧
      ({ catalog } : Compiler).compileText (Sql.print (renamedFirst "first")) = .ok plain ∧
      (∃ written, Sparql.render plain = .ok written) ∧
      ({ catalog } : Compiler).compileText (Sql.print (renamedFirst "s·foo·p")) = .ok captured ∧
      Sparql.render captured = .error (.invalidDisplayName "s·foo·p") := by
  have checked : ∃ catalog, classified.build = .ok catalog ∧
      (∃ plain, ({ catalog } : Compiler).compile (renamedFirst "first") = .ok plain ∧
        ∀ projection ∈ plain.projections, ¬ Sparql.Clashes plain.columns projection) ∧
      ∃ captured, ({ catalog } : Compiler).compile (renamedFirst "s·foo·p") = .ok captured ∧
        (∃ projection ∈ captured.projections, Sparql.Clashes captured.columns projection) ∧
        ∀ projection ∈ captured.projections, Sparql.Clashes captured.columns projection →
          projection.displayName = "s·foo·p" := by
    decide +kernel
  obtain ⟨catalog, built, ⟨plain, compiled, free⟩, captured, compiledToo,
    ⟨clashing, member, clashes⟩, onlyFirst⟩ := checked
  rw [← Compiler.compileText_of_parse _ (parse_print_renamedFirst _)] at compiled compiledToo
  refine ⟨catalog, plain, captured, built, compiled, ?_, compiledToo, ?_⟩
  · rcases Compiler.render_of_compileText built rfl compiled with
      ⟨written, _⟩ | ⟨projection, shown, clash, _⟩
    · exact written
    · exact absurd clash (free projection shown)
  · rcases Compiler.render_of_compileText built rfl compiledToo with
      ⟨_, noClash⟩ | ⟨projection, shown, clash, failed⟩
    · exact absurd clashes (noClash clashing member)
    · rwa [onlyFirst projection shown clash] at failed

end TripleTables
