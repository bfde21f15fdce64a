import TripleTables.Proofs.Builder.Layout

/-!
# Placing every triple once

What stands in the blocks of a builder is known from its bindings and its
registered columns (`Placed`).  This module adds the history: which operation
registered a column and whether it wanted it as optional, and in which order
binds and filters were added.  Together they say of every sequence of
operations what the closed query holds and where.
-/

namespace TripleTables.Builder

open TripleTables.Graph

/-! ## What an operation adds -/

namespace Operation

/-- The operation wants the columns that it registers as optional. -/
def wantsOptional : Operation → Bool
  | .addColumn _ optional => optional
  | _ => false

/-- The columns that the operation registers, with its wish. -/
def registers (builder : Builder) (operation : Operation) : List (Registration × Bool) :=
  ((Run.after operation.run builder).registrations.drop builder.registrations.length).map
    (fun registration => (registration, operation.wantsOptional))

/-- The binds that the operation adds.  A value that is shown is bound unless it
is an aggregate or its name is taken. -/
def binds (builder : Builder) : Operation → List (Expr × Variable)
  | .addBind expr v => [(expr, v)]
  | .addComputed expr displayName =>
      if builder.displayNames.contains displayName || expr.containsAggregate then []
      else [(expr, Variable.ofText displayName)]
  | _ => []

/-- The filters that the operation adds behind the blocks.  The filter of a
left-joined binding goes into its group. -/
def filters (builder : Builder) : Operation → List Expr
  | .addFilter condition => [condition]
  | .addBindingFilter id condition =>
      match builder.bindings[id]? with
      | some binding => if binding.isOptional then [] else [condition]
      | none => []
  | _ => []

end Operation

/-- What operations add one after the other. -/
def gathered {α : Type} (adds : Builder → Operation → List α) :
    List Operation → Builder → List α
  | [], _ => []
  | operation :: rest, builder =>
      adds builder operation ++ gathered adds rest (Run.after operation.run builder)

/-- A step that registers columns with a wish and adds binds and filters behind
those that are there. -/
structure Adds (wanted : Bool) (binds : List (Expr × Variable)) (filters : List Expr)
    (builder next : Builder) : Prop where
  registered : ∃ more, next.registrations = builder.registrations ++ more ∧
    ∀ registration ∈ more, registration.inGroup =
      (registration.binding.isOptional || registration.column.nullable || wanted)
  binds : next.binds = builder.binds ++ binds
  filters : next.filters = builder.filters ++ filters

namespace Adds

variable {wanted : Bool} {builder next : Builder}

/-- The step leaves the columns alone. -/
theorem of_registrations {binds : List (Expr × Variable)} {filters : List Expr}
    (same : next.registrations = builder.registrations)
    (bindsAdded : next.binds = builder.binds ++ binds)
    (filtersAdded : next.filters = builder.filters ++ filters) :
    Adds wanted binds filters builder next :=
  ⟨⟨[], by rw [same, List.append_nil], by simp⟩, bindsAdded, filtersAdded⟩

theorem refl (builder : Builder) : Adds wanted [] [] builder builder :=
  of_registrations rfl (List.append_nil _).symm (List.append_nil _).symm

theorem trans {last : Builder} (early : Adds wanted [] [] builder next)
    (late : Adds wanted [] [] next last) : Adds wanted [] [] builder last := by
  obtain ⟨first, isFirst, firstFlags⟩ := early.registered
  obtain ⟨second, isSecond, secondFlags⟩ := late.registered
  refine ⟨⟨first ++ second, ?_, ?_⟩, ?_, ?_⟩
  · rw [isSecond, isFirst, List.append_assoc]
  · intro registration member
    rcases List.mem_append.mp member with inFirst | inSecond
    · exact firstFlags registration inFirst
    · exact secondFlags registration inSecond
  · rw [late.binds, early.binds, List.append_nil]
  · rw [late.filters, early.filters, List.append_nil]

/-- A sequence adds what its parts add. -/
theorem bind {α β : Type} {first : Build α} {following : α → Build β}
    (early : Adds wanted [] [] builder (Run.after first builder))
    (late : ∀ value middle, first builder = .ok value middle →
      Adds wanted [] [] middle (Run.after (following value) middle)) :
    Adds wanted [] [] builder (Run.after (first >>= following) builder) := by
  cases ran : first builder with
  | error error middle =>
      rw [Run.after_of_error ran] at early
      have failed : (first >>= following) builder = .error error middle := by
        simp [Bind.bind, EStateM.bind, ran]
      rwa [Run.after_of_error failed]
  | ok value middle =>
      rw [Run.after_of_ok ran] at early
      have same : Run.after (first >>= following) builder = Run.after (following value) middle := by
        simp [Run.after, Bind.bind, EStateM.bind, ran]
      rw [same]
      exact early.trans (late value middle ran)

end Adds

/-! ## Operations that register columns -/

theorem adds_addColumn {builder : Builder} (consistent : Consistent builder) (name : Name)
    (optional : Bool) :
    Adds optional [] [] builder (Run.after (addColumn name optional) builder) := by
  rcases addColumn_spec name optional builder with
    ⟨error, _, failed⟩ | ⟨_, column, _, _, ran⟩ | ⟨place, _, _, registering⟩
  · rw [Run.after_of_error failed]
    exact .refl builder
  · rw [Run.after_of_ok ran]
    exact .refl builder
  · rcases registerColumn_spec place optional builder with
      ⟨error, _, failed⟩ | ⟨binding, column, triple, blocks, inGroup, bound, declared, filled,
        placing, ran⟩
    · rw [Run.after_of_error (registering.trans failed)]
      exact .refl builder
    · rw [Run.after_of_ok (registering.trans ran)]
      refine ⟨⟨[⟨place, binding, column, triple, inGroup⟩], ?_, ?_⟩, ?_, ?_⟩
      · exact consistent.registrations_withColumn bound declared filled (.placeColumn placing)
          inGroup
      · intro registration member
        rw [List.mem_singleton.mp member]
        exact inGroup_of_placeColumn placing
      · exact (List.append_nil _).symm
      · exact (List.append_nil _).symm

theorem adds_addVar (wanted : Bool) (v : Variable) (displayName : Option String)
    (builder : Builder) :
    Adds wanted [] [] builder (Run.after (addVar v displayName) builder) := by
  cases chosen : builder.chooseDisplayName v displayName with
  | error error =>
      have failed : addVar v displayName builder = .error error builder := by
        simp [addVar, chosen]
      rw [Run.after_of_error failed]
      exact .refl builder
  | ok name =>
      simp only [Run.after, addVar, Run.get_bind_apply, chosen, Run.build_liftExcept_ok, pure_bind]
      exact .of_registrations rfl (List.append_nil _).symm (List.append_nil _).symm

/-- Filling keeps a builder consistent. -/
theorem Consistent.of_moves {α : Type} {step : Build α} (moves : Run.Moves Fills step)
    {builder next : Builder} {value : α} (consistent : Consistent builder)
    (ran : step builder = .ok value next) : Consistent next :=
  Run.kept_along (fun _ _ fills consistent => consistent.fill fills) (moves.of_ok ran) consistent

theorem adds_addEach {builder : Builder} (consistent : Consistent builder) (names : List Name) :
    Adds false [] [] builder (Run.after (addEach names) builder) := by
  induction names generalizing builder with
  | nil => exact .refl builder
  | cons name rest ih =>
      refine .bind (adds_addColumn consistent name false) ?_
      intro v middle ran
      have moves : Run.Moves Fills (addColumn name false) :=
        (moves_addColumn name false).mono fun _ _ => .column
      have consistentMiddle : Consistent middle := consistent.of_moves moves ran
      refine .bind (adds_addVar false v none middle) ?_
      intro _ last shown
      exact ih (consistentMiddle.of_moves (moves_addVar v none) shown)

theorem adds_addAllColumns {builder : Builder} (consistent : Consistent builder)
    (pattern : Option Name) :
    Adds false [] [] builder (Run.after (addAllColumns pattern) builder) := by
  cases targets : builder.starTargets pattern with
  | error error =>
      have failed : addAllColumns pattern builder = .error error builder := by
        simp [addAllColumns, targets]
      rw [Run.after_of_error failed]
      exact .refl builder
  | ok names =>
      have each : addAllColumns pattern builder =
          addEach (names.flatMap builder.columnsOfBinding) builder := by
        simp only [addAllColumns, Run.get_bind_apply, targets, Run.build_liftExcept_ok, pure_bind]
      rw [Run.after, each]
      exact adds_addEach consistent _

/-! ## Operations that add binds and filters -/

theorem adds_addTable {builder : Builder} (consistent : Consistent builder) (tableName : Name)
    (asName : Option String) (optional : Bool) :
    Adds false [] [] builder (Run.after (addTable tableName asName optional) builder) := by
  rcases addTable_spec tableName asName optional builder with
    ⟨error, _, failed⟩ | ⟨table, triples, _, _, _, ran⟩
  · rw [Run.after_of_error failed]
    exact .refl builder
  · rw [Run.after_of_ok ran]
    exact .of_registrations (consistent.registrations_withTable table _ optional triples)
      (List.append_nil _).symm (List.append_nil _).symm

theorem adds_addComputed (expr : Expr) (displayName : String) (builder : Builder) :
    Adds false ((Operation.addComputed expr displayName).binds builder) [] builder
      (Run.after (addComputed expr displayName) builder) := by
  cases taken : builder.displayNames.contains displayName with
  | true =>
      have failed : addComputed expr displayName builder =
          .error (.duplicateProjection displayName) builder := by
        simp only [addComputed, Run.get_bind_apply, taken, if_true, Run.throw_bind,
          Run.throw_apply]
      rw [Run.after_of_error failed]
      refine .of_registrations rfl ?_ (List.append_nil _).symm
      simp only [Operation.binds, taken, Bool.true_or, if_true, List.append_nil]
  | false =>
      simp only [Run.after, addComputed, Run.get_bind_apply, taken, Bool.false_eq_true, if_false]
      cases aggregate : expr.containsAggregate with
      | true =>
          refine .of_registrations rfl ?_ (List.append_nil _).symm
          simp only [Operation.binds, aggregate, Bool.or_true, if_true, List.append_nil]
          rfl
      | false =>
          refine .of_registrations rfl ?_ (List.append_nil _).symm
          simp only [Operation.binds, taken, aggregate, Bool.or_self, Bool.false_eq_true, if_false]
          rfl

theorem adds_addBindingFilter (id : Nat) (condition : Expr) (builder : Builder) :
    Adds false [] ((Operation.addBindingFilter id condition).filters builder) builder
      (Run.after (addBindingFilter id condition) builder) := by
  cases bound : builder.bindings[id]? with
  | none =>
      have failed : addBindingFilter id condition builder =
          .error (.unknownBinding id) builder := by
        simp [addBindingFilter, bindingAt, bound]
      rw [Run.after_of_error failed]
      simp only [Operation.filters, bound]
      exact .refl builder
  | some binding =>
      simp only [Operation.filters, bound]
      cases grouped : binding.group with
      | none =>
          have ran : addBindingFilter id condition builder = addFilter condition builder := by
            simp [addBindingFilter, bindingAt, bound, grouped]
          rw [Run.after, ran]
          simp only [Binding.isOptional, grouped, Option.isSome_none, Bool.false_eq_true, if_false]
          exact .of_registrations rfl (List.append_nil _).symm rfl
      | some position =>
          simp only [Binding.isOptional, grouped, Option.isSome_some, if_true]
          cases found : builder.groupAt position with
          | error error =>
              have failed : addBindingFilter id condition builder = .error error builder := by
                simp [addBindingFilter, bindingAt, bound, grouped, found]
              rw [Run.after_of_error failed]
              exact .refl builder
          | ok group =>
              have ran : addBindingFilter id condition builder =
                  .ok () (builder.withGroupFilter position group condition) := by
                simp only [addBindingFilter, Run.get_bind_apply, bindingAt, bound,
                  Run.build_liftExcept_ok, pure_bind, grouped, found]
                rfl
              rw [Run.after_of_ok ran]
              exact .of_registrations rfl (List.append_nil _).symm (List.append_nil _).symm

/-- What an operation adds, whether it succeeds or fails. -/
theorem adds_operation {builder : Builder} (consistent : Consistent builder)
    (operation : Operation) :
    Adds operation.wantsOptional (operation.binds builder) (operation.filters builder) builder
      (Run.after operation.run builder) := by
  cases operation with
  | addTable name asName optional =>
      rw [Operation.run, Run.after_bind_pure]
      exact adds_addTable consistent name asName optional
  | addColumn name optional =>
      rw [Operation.run, Run.after_bind_pure]
      exact adds_addColumn consistent name optional
  | addAllColumns pattern => exact adds_addAllColumns consistent pattern
  | addVar v displayName => exact adds_addVar false v displayName builder
  | addComputed expr displayName =>
      rw [Operation.run, Run.after_bind_pure]
      exact adds_addComputed expr displayName builder
  | addFilter condition => exact .of_registrations rfl (List.append_nil _).symm rfl
  | addBindingFilter id condition => exact adds_addBindingFilter id condition builder
  | addBind expr v => exact .of_registrations rfl rfl (List.append_nil _).symm
  | setDistinct distinct =>
      exact .of_registrations rfl (List.append_nil _).symm (List.append_nil _).symm
  | addGroupBy key =>
      exact .of_registrations rfl (List.append_nil _).symm (List.append_nil _).symm
  | addHaving condition =>
      exact .of_registrations rfl (List.append_nil _).symm (List.append_nil _).symm
  | addOrderBy expr ascending =>
      exact .of_registrations rfl (List.append_nil _).symm (List.append_nil _).symm
  | setLimit limit =>
      exact .of_registrations rfl (List.append_nil _).symm (List.append_nil _).symm
  | setOffset offset =>
      exact .of_registrations rfl (List.append_nil _).symm (List.append_nil _).symm

/-! ## What a run adds -/

theorem Consistent.after_operation {builder : Builder} (consistent : Consistent builder)
    (operation : Operation) : Consistent (Run.after operation.run builder) :=
  Run.kept_along (fun _ _ change consistent => consistent.change change)
    (moves_operation operation builder) consistent

theorem Consistent.after_operations {builder : Builder} (consistent : Consistent builder)
    (operations : List Operation) : Consistent (afterAll operations builder) := by
  induction operations generalizing builder with
  | nil => exact consistent
  | cons operation rest ih => exact ih (consistent.after_operation operation)

/-- What every operation puts behind a part is gathered behind it. -/
theorem append_gathered {α : Type} {part : Builder → List α}
    {adds : Builder → Operation → List α}
    (step : ∀ builder operation, Consistent builder →
      part (Run.after operation.run builder) = part builder ++ adds builder operation)
    {builder : Builder} (consistent : Consistent builder) (operations : List Operation) :
    part (afterAll operations builder) = part builder ++ gathered adds operations builder := by
  induction operations generalizing builder with
  | nil => exact (List.append_nil _).symm
  | cons operation rest ih =>
      have behind := ih (consistent.after_operation operation)
      rw [step builder operation consistent, List.append_assoc] at behind
      exact behind

theorem forall_gathered {α : Type} {adds : Builder → Operation → List α} {holds : α → Prop}
    (step : ∀ builder operation, Consistent builder →
      ∀ value ∈ adds builder operation, holds value)
    {builder : Builder} (consistent : Consistent builder) (operations : List Operation) :
    ∀ value ∈ gathered adds operations builder, holds value := by
  induction operations generalizing builder with
  | nil => simp [gathered]
  | cons operation rest ih =>
      intro value member
      rcases List.mem_append.mp member with now | later
      · exact step builder operation consistent value now
      · exact ih (consistent.after_operation operation) value later

theorem map_gathered {α β : Type} (adds : Builder → Operation → List α) (f : α → β)
    (operations : List Operation) (builder : Builder) :
    (gathered adds operations builder).map f =
      gathered (fun builder operation => (adds builder operation).map f) operations builder := by
  induction operations generalizing builder with
  | nil => rfl
  | cons operation rest ih => rw [gathered, List.map_append, ih, gathered]

/-- The columns that an operation registers come behind the others, and stand
in an optional group if their table is left-joined, if they are nullable, or if
the operation wants it. -/
theorem registers_operation {builder : Builder} (consistent : Consistent builder)
    (operation : Operation) :
    (Run.after operation.run builder).registrations =
        builder.registrations ++ (operation.registers builder).map Prod.fst ∧
      ∀ request ∈ operation.registers builder, request.1.inGroup =
        (request.1.binding.isOptional || request.1.column.nullable || request.2) := by
  obtain ⟨more, grown, flags⟩ := (adds_operation consistent operation).registered
  have same : operation.registers builder =
      more.map (fun registration => (registration, operation.wantsOptional)) := by
    rw [Operation.registers, grown, List.drop_left]
  rw [same]
  constructor
  · rw [grown, List.map_map]
    simp [Function.comp_def]
  · intro request member
    obtain ⟨registration, inMore, rfl⟩ := List.mem_map.mp member
    exact flags registration inMore

/-! ## Closing the query -/

/-- A column of a bound table is registered at its place, its template has been
filled with its variable, and the index leads to what is kept of it. -/
def Registration.Stands (builder : Builder) (registration : Registration) : Prop :=
  ∃ position template,
    builder.columnIndex.lookup registration.place = some position ∧
    builder.bindings[registration.place.1]? = some registration.binding ∧
    registration.binding.table.columns[registration.place.2]? = some registration.column ∧
    registration.column.readTemplate = .ok template ∧
    template.instantiate registration.binding.subject
      (some (.variable (registration.binding.columnVariable registration.column))) =
        .ok (some registration.triple) ∧
    builder.columns[position]? =
      some (mention registration.binding registration.column registration.inGroup)

/-- The registered columns are those that were asked for, each in the way of
the first request. -/
structure Requested (builder : Builder) (requests : List (Registration × Bool)) : Prop where
  registered : requests.map Prod.fst = builder.registrations
  places : builder.registrations.map Registration.place = builder.columnIndex.map Prod.fst
  distinct : (builder.registrations.map Registration.place).Nodup
  stands : ∀ registration ∈ builder.registrations, registration.Stands builder
  inGroup : ∀ request ∈ requests, request.1.inGroup =
    (request.1.binding.isOptional || request.1.column.nullable || request.2)

/-- The builder closes to a query that holds all triples of the blocks, and then
the binds and the filters.  Only a builder without tables does not close, and it
holds no triple. -/
def Closes (builder : Builder) (binds : List (Expr × Variable)) (filters : List Expr) : Prop :=
  (builder.build = .error .emptyFrom ∧ builder.blocks.flatMap Block.allTriples = []) ∨
    ∃ query kept, builder.build = .ok query ∧
      query.elements = kept.map Element.block ++
        (binds.map (fun entry => Element.bind entry.1 entry.2) ++ filters.map Element.filter) ∧
      kept = builder.blocks.filter (fun block => !block.isVoid) ∧
      kept.flatMap Block.allTriples = builder.blocks.flatMap Block.allTriples

theorem Consistent.stands {builder : Builder} (consistent : Consistent builder)
    {registration : Registration} (registered : registration ∈ builder.registrations) :
    registration.Stands builder := by
  obtain ⟨position, indexed, bound, declared, filled, kept⟩ := consistent.exists_entry registered
  obtain ⟨template, read, made⟩ := instantiate_of_columnTriple filled
  exact ⟨position, template, consistent.lookup_eq_some_iff.mpr indexed, bound, declared, read,
    made, kept⟩

theorem Placed.closes {builder : Builder} (placed : Placed builder)
    (consistent : Consistent builder) : Closes builder builder.binds builder.filters := by
  cases none : builder.bindings with
  | nil =>
      refine .inl ⟨by simp [build, none], ?_⟩
      have unregistered : builder.registrations = [] := by
        refine List.eq_nil_iff_forall_not_mem.mpr ?_
        intro registration registered
        obtain ⟨_, _, bound, _⟩ := consistent.exists_entry registered
        simp [none] at bound
      have once := placed.once
      rw [none, unregistered] at once
      exact once.eq_nil
  | cons first rest =>
      have nonempty : builder.bindings.isEmpty = false := by simp [none]
      simp only [Closes, build, nonempty, Bool.false_eq_true, if_false]
      exact .inr ⟨_, _, rfl, List.append_assoc _ _ _, rfl, flatMap_allTriples_filter builder.blocks⟩

theorem Consistent.requested {builder : Builder} (consistent : Consistent builder)
    (unregistered : builder.registrations = []) (operations : List Operation) :
    Requested (afterAll operations builder) (gathered Operation.registers operations builder) := by
  have consistentNext := consistent.after_operations operations
  have grown : (afterAll operations builder).registrations =
      builder.registrations ++ gathered (fun builder operation =>
        (operation.registers builder).map Prod.fst) operations builder :=
    append_gathered (fun _ operation consistent => (registers_operation consistent operation).1)
      consistent operations
  rw [unregistered, List.nil_append, ← map_gathered] at grown
  have places := consistentNext.map_place_registrations
  refine ⟨grown.symm, places, ?_, fun _ => consistentNext.stands, ?_⟩
  · rw [places]
    exact consistentNext.places
  · exact forall_gathered
      (fun _ operation consistent => (registers_operation consistent operation).2)
      consistent operations

/-- After any operations, whether they succeed or fail, every triple stands
once and where it should. -/
theorem placed_afterAll (catalog : Catalog) (defaultSchema : Option String) (useService : Bool)
    (operations : List Operation) :
    let start : Builder := { catalog, defaultSchema, useService }
    let builder := afterAll operations start
    Placed builder ∧
      (∀ binding ∈ builder.bindings, ∃ templates, binding.table.readTemplates = .ok templates ∧
        FilledFrom binding.subject binding.table.object? templates binding.ownTriples) ∧
      Requested builder (gathered Operation.registers operations start) ∧
      Closes builder (gathered Operation.binds operations start)
        (gathered Operation.filters operations start) := by
  intro start builder
  have consistentStart : Consistent start := consistent_empty catalog defaultSchema useService
  have reachable : Reachable catalog builder :=
    (Reachable.empty defaultSchema useService).afterAll operations
  have placed := reachable.placed
  have consistent := reachable.consistent
  refine ⟨placed, ?_, ?_, ?_⟩
  · intro binding member
    exact Table.filledFrom_of_triples (placed.own binding member)
  · exact consistentStart.requested rfl operations
  · have binds : builder.binds = gathered Operation.binds operations start :=
      append_gathered (fun _ operation consistent => (adds_operation consistent operation).binds)
        consistentStart operations
    have filters : builder.filters = gathered Operation.filters operations start :=
      append_gathered (fun _ operation consistent => (adds_operation consistent operation).filters)
        consistentStart operations
    rw [← binds, ← filters]
    exact placed.closes consistent

end TripleTables.Builder
