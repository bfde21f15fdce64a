import TripleTables.Proofs.Run

/-!
# Changes of a builder

Every operation on a builder either fails and leaves the builder as it was, or
makes changes of five kinds: a table is bound, a column is registered, a
result column is shown, a condition is put into an optional group, or a part
is set that no other operation reads back for the pattern.  What each kind
does is said here once; invariants of builders are proved kind by kind.

Only binding a table adds a binding.  The other four kinds are gathered in
`Fills`, since a compilation binds all tables before it makes any of them.
-/

namespace TripleTables

open TripleTables.Graph
open Relation

/-- The name of a table under an alias. -/
def Table.aliased (table : Table) (tableAlias : String) : Name :=
  Name.ofSegments table.name.catalog table.name.schema (some tableAlias) none

/-- The variable of a column of the binding. -/
def Binding.columnVariable (binding : Binding) (column : Column) : Variable :=
  Variable.ofName (binding.columnName column.shortName)

/-- The group with one more condition. -/
def OptionalGroup.withFilter (group : OptionalGroup) (condition : Expr) : OptionalGroup :=
  { group with filters := group.filters ++ [condition] }

namespace Builder

/-! ## The changes -/

/-- The binding that a table gets. -/
def nextBinding (builder : Builder) (table : Table) (tableAlias : String) (optional : Bool) :
    Binding :=
  { id := builder.bindings.length
    name := table.aliased tableAlias
    table
    group := if optional then some builder.blocks.length else none }

/-- The blocks with the own triples of a table. -/
def blocksWithTable (builder : Builder) (optional : Bool) (triples : List Triple) : List Block :=
  if optional then builder.blocks ++ [.optional { triples }]
  else triples.foldl pushRequired builder.blocks

/-- The builder in which a table is bound. -/
def withTable (builder : Builder) (table : Table) (tableAlias : String) (optional : Bool)
    (triples : List Triple) : Builder :=
  { builder with
    blocks := builder.blocksWithTable optional triples
    bindings := builder.bindings ++ [builder.nextBinding table tableAlias optional] }

/-- What is kept of a column of a binding. -/
def mention (binding : Binding) (column : Column) (inGroup : Bool) : MentionedColumn :=
  { name := binding.columnName column.shortName
    var := binding.columnVariable column
    sqlType := column.sqlType
    nullable := column.nullable
    optional := inGroup }

/-- The builder in which a column is registered. -/
def withColumn (builder : Builder) (place : Nat × Nat) (mentioned : MentionedColumn)
    (blocks : List Block) : Builder :=
  { builder with
    blocks
    columnIndex := builder.columnIndex ++ [(place, builder.columns.length)]
    columns := builder.columns ++ [mentioned] }

/-- The builder in which a group has one more condition. -/
def withGroupFilter (builder : Builder) (position : Nat) (group : OptionalGroup)
    (condition : Expr) : Builder :=
  { builder with blocks := builder.blocks.set position (.optional (group.withFilter condition)) }

/-- A table of the catalog is bound under an alias that is free. -/
inductive Binds (builder : Builder) : Builder → Prop
  | intro {tableName : Name} {table : Table} {tableAlias : String} {optional : Bool}
      {triples : List Triple}
      (resolved : builder.resolveTable tableName = .ok table)
      (free : ∀ binding ∈ builder.bindings, binding.tableAlias ≠ tableAlias)
      (filled : table.triples (Variable.ofName (table.aliased tableAlias)) = .ok triples) :
      Binds builder (builder.withTable table tableAlias optional triples)

/-- A column that has not been registered yet is registered with its triple. -/
inductive Registers (builder : Builder) : Builder → Prop
  | intro {place : Nat × Nat} {optional : Bool} {binding : Binding} {column : Column}
      {triple : Triple} {blocks : List Block} {inGroup : Bool}
      (fresh : builder.registered? place = none)
      (bound : builder.bindings[place.1]? = some binding)
      (declared : binding.table.columns[place.2]? = some column)
      (filled : columnTriple binding column (binding.columnVariable column) = .ok triple)
      (placed : builder.placeColumn binding column.nullable optional triple =
        .ok (blocks, inGroup)) :
      Registers builder (builder.withColumn place (mention binding column inGroup) blocks)

/-- A change that binds no table. -/
inductive Fills (builder : Builder) : Builder → Prop
  | column {next : Builder} (registers : Registers builder next) : Fills builder next
  /-- A result column is shown under a name that is free. -/
  | projection (projection : Projection)
      (free : projection.displayName ∉ builder.displayNames) :
      Fills builder (builder.withProjection projection)
  /-- A condition is put into the optional group of a binding. -/
  | condition {id : Nat} {binding : Binding} {position : Nat} {group : OptionalGroup}
      (condition : Expr)
      (bound : builder.bindings[id]? = some binding)
      (grouped : binding.group = some position)
      (found : builder.groupAt position = .ok group) :
      Fills builder (builder.withGroupFilter position group condition)
  /-- A part is set that stands outside the blocks. -/
  | outside (binds : List (Expr × Variable)) (filters : List Expr) (distinct : Bool)
      (groupBy having : List Expr) (orderBy : List OrderKey) (limit offset : Option Nat) :
      Fills builder
        { builder with binds, filters, distinct, groupBy, having, orderBy, limit, offset }

/-- A change that shows nothing and binds no variable. -/
inductive Settles (builder : Builder) : Builder → Prop
  | column {next : Builder} (registers : Registers builder next) : Settles builder next
  | condition {id : Nat} {binding : Binding} {position : Nat} {group : OptionalGroup}
      (condition : Expr)
      (bound : builder.bindings[id]? = some binding)
      (grouped : binding.group = some position)
      (found : builder.groupAt position = .ok group) :
      Settles builder (builder.withGroupFilter position group condition)
  | outside (filters : List Expr) (distinct : Bool) (groupBy having : List Expr)
      (orderBy : List OrderKey) (limit offset : Option Nat) :
      Settles builder { builder with filters, distinct, groupBy, having, orderBy, limit, offset }

theorem Settles.fills {builder next : Builder} (settles : Settles builder next) :
    Fills builder next := by
  cases settles with
  | column registers => exact .column registers
  | condition condition bound grouped found => exact .condition condition bound grouped found
  | outside filters distinct groupBy having orderBy limit offset =>
      exact .outside builder.binds filters distinct groupBy having orderBy limit offset

theorem Settles.shown_eq {builder next : Builder} (settles : Settles builder next) :
    next.projections = builder.projections ∧ next.binds = builder.binds := by
  cases settles with
  | column registers =>
      cases registers
      exact ⟨rfl, rfl⟩
  | condition condition bound grouped found => exact ⟨rfl, rfl⟩
  | outside => exact ⟨rfl, rfl⟩

/-- One change that an operation makes. -/
inductive Change (builder : Builder) : Builder → Prop
  | table {next : Builder} (binds : Binds builder next) : Change builder next
  | fill {next : Builder} (fills : Fills builder next) : Change builder next

/-- Only binding a table changes the bindings. -/
theorem Fills.bindings_eq {builder next : Builder} (fills : Fills builder next) :
    next.catalog = builder.catalog ∧ next.bindings = builder.bindings := by
  cases fills with
  | column registers =>
      cases registers
      exact ⟨rfl, rfl⟩
  | projection projection free => exact ⟨rfl, rfl⟩
  | condition condition bound grouped found => exact ⟨rfl, rfl⟩
  | outside => exact ⟨rfl, rfl⟩

theorem bindings_of_fills {builder next : Builder} (filling : ReflTransGen Fills builder next) :
    next.bindings = builder.bindings := by
  induction filling with
  | refl => rfl
  | tail _ fills ih => exact fills.bindings_eq.2.trans ih

/-! ## What the operations do -/

/-- The table that was bound last is found under its number. -/
theorem lookUp_withTable (builder : Builder) (table : Table) (asName : String)
    (optional : Bool) (triples : List Triple) :
    (do
      set (builder.withTable table asName optional triples)
      liftExcept ((← get).bindingAt builder.bindings.length) : Build Binding) builder =
      .ok (builder.nextBinding table asName optional)
        (builder.withTable table asName optional triples) := by
  have found : (builder.withTable table asName optional triples).bindingAt
      builder.bindings.length = .ok (builder.nextBinding table asName optional) := by
    simp [bindingAt, withTable]
  rw [Run.set_bind_apply, Run.get_bind_apply, found]
  rfl

/-- Why a table is not bound: nothing is meant by its name, its alias is taken, or its
templates cannot be filled. -/
inductive Unbound (builder : Builder) (tableName : Name) (asName : Option String) :
    QueryError → Prop
  | unresolved {error : QueryError} (failed : builder.resolveTable tableName = .error error) :
      Unbound builder tableName asName error
  | taken (tableAlias : String) : Unbound builder tableName asName (.duplicateAlias tableAlias)
  | unfilled {table : Table} {fault : TemplateError}
      (resolved : builder.resolveTable tableName = .ok table)
      (failed : table.triples
        (Variable.ofName (table.aliased (asName.getD table.name.shortName))) = .error fault) :
      Unbound builder tableName asName (.malformed fault)

/-- Binding a table fails and changes nothing, or binds the table. -/
theorem addTable_spec (tableName : Name) (asName : Option String) (optional : Bool)
    (builder : Builder) :
    (∃ error, Unbound builder tableName asName error ∧
        addTable tableName asName optional builder = .error error builder) ∨
      ∃ table triples,
        builder.resolveTable tableName = .ok table ∧
        (∀ binding ∈ builder.bindings,
          binding.tableAlias ≠ asName.getD table.name.shortName) ∧
        table.triples (Variable.ofName (table.aliased (asName.getD table.name.shortName))) =
          .ok triples ∧
        addTable tableName asName optional builder =
          .ok (builder.nextBinding table (asName.getD table.name.shortName) optional)
            (builder.withTable table (asName.getD table.name.shortName) optional triples) := by
  cases resolved : builder.resolveTable tableName with
  | error error => exact .inl ⟨error, .unresolved resolved, by simp [addTable, resolved]⟩
  | ok table =>
      by_cases taken :
          builder.bindings.any
            (fun binding => binding.tableAlias == asName.getD table.name.shortName) = true
      · refine .inl ⟨_, .taken (asName.getD table.name.shortName), ?_⟩
        simp only [addTable, Run.get_bind_apply, resolved, Run.build_liftExcept_ok, pure_bind,
          taken, if_true, Run.throw_bind, Run.throw_apply]
      · have free : ∀ binding ∈ builder.bindings,
            binding.tableAlias ≠ asName.getD table.name.shortName := by
          simpa using taken
        simp only [addTable, Run.get_bind_apply, resolved, Run.build_liftExcept_ok, pure_bind,
          taken, Bool.false_eq_true, if_false]
        cases filled :
            table.triples (Variable.ofName (table.aliased (asName.getD table.name.shortName))) with
        | error error =>
            refine .inl ⟨_, .unfilled resolved filled, ?_⟩
            rw [Table.aliased] at filled
            simp only [filled, Except.mapError, Run.build_liftExcept_error, Run.throw_bind,
              Run.throw_apply]
        | ok triples =>
            refine .inr ⟨table, triples, rfl, free, filled, ?_⟩
            rw [Table.aliased] at filled
            simp only [filled, Except.mapError, Run.build_liftExcept_ok, pure_bind]
            exact lookUp_withTable builder table _ optional triples

theorem placeColumn_ne_unknownColumn {builder : Builder} {binding : Binding}
    {nullable optional : Bool} {triple : Triple} {error : QueryError}
    (failed : builder.placeColumn binding nullable optional triple = .error error) (name : Name) :
    error ≠ .unknownColumn name := by
  cases grouped : binding.group with
  | none =>
      simp only [placeColumn, grouped] at failed
      split at failed
      · contradiction
      · contradiction
  | some position =>
      simp only [placeColumn, grouped, groupAt] at failed
      split at failed
      · contradiction
      · cases failed
        simp

/-- Registering a column fails and changes nothing, or registers the column
and gives its variable.  It does not fail for want of the column. -/
theorem registerColumn_spec (place : Nat × Nat) (optional : Bool) (builder : Builder) :
    (∃ error, (∀ name, error ≠ .unknownColumn name) ∧
        registerColumn place optional builder = .error error builder) ∨
      ∃ binding column triple blocks inGroup,
        builder.bindings[place.1]? = some binding ∧
        binding.table.columns[place.2]? = some column ∧
        columnTriple binding column (binding.columnVariable column) = .ok triple ∧
        builder.placeColumn binding column.nullable optional triple = .ok (blocks, inGroup) ∧
        registerColumn place optional builder =
          .ok (binding.columnVariable column)
            (builder.withColumn place (mention binding column inGroup) blocks) := by
  cases bound : builder.bindings[place.1]? with
  | none =>
      exact .inl ⟨.unknownBinding place.1, by simp, by simp [registerColumn, bindingAt, bound]⟩
  | some binding =>
      cases declared : binding.table.columns[place.2]? with
      | none =>
          refine .inl ⟨.catalog (.columnOutOfRange binding.table.name place.2
            binding.table.columns.length), by simp, ?_⟩
          simp [registerColumn, bindingAt, bound, Table.columnAt, declared, Except.mapError]
      | some column =>
          simp only [registerColumn, Run.get_bind_apply, bindingAt, bound,
            Run.build_liftExcept_ok, pure_bind, Table.columnAt, declared, Except.mapError]
          cases filled : columnTriple binding column (binding.columnVariable column) with
          | error error =>
              refine .inl ⟨.malformed error, by simp, ?_⟩
              rw [Binding.columnVariable] at filled
              simp only [filled, Run.build_liftExcept_error, Run.throw_bind, Run.throw_apply]
          | ok triple =>
              cases placed :
                  builder.placeColumn binding column.nullable optional triple with
              | error error =>
                  refine .inl ⟨error, placeColumn_ne_unknownColumn placed, ?_⟩
                  rw [Binding.columnVariable] at filled
                  simp only [filled, placed, Run.build_liftExcept_ok, Run.build_liftExcept_error,
                    pure_bind, Run.throw_bind, Run.throw_apply]
              | ok result =>
                  refine .inr ⟨binding, column, triple, result.1, result.2, rfl, declared,
                    filled, placed, ?_⟩
                  rw [Binding.columnVariable] at filled
                  simp only [filled, placed, Run.build_liftExcept_ok, pure_bind,
                    Run.set_bind_apply, Run.pure_apply]
                  rfl

/-- A name means no one column, or means a column that has been registered or
is registered now. -/
theorem addColumn_spec (name : Name) (optional : Bool) (builder : Builder) :
    (∃ error, builder.resolveColumn name = .error error ∧
        addColumn name optional builder = .error error builder) ∨
      (∃ place column, builder.resolveColumn name = .ok place ∧
        builder.registered? place = some column ∧
        addColumn name optional builder = .ok column.var builder) ∨
      ∃ place, builder.resolveColumn name = .ok place ∧ builder.registered? place = none ∧
        addColumn name optional builder = registerColumn place optional builder := by
  cases resolved : builder.resolveColumn name with
  | error error => exact .inl ⟨error, rfl, by simp [addColumn, resolved]⟩
  | ok place =>
      cases found : builder.registered? place with
      | some column =>
          exact .inr (.inl ⟨place, column, rfl, found, by simp [addColumn, resolved, found]⟩)
      | none => exact .inr (.inr ⟨place, rfl, found, by simp [addColumn, resolved, found]⟩)

/-- The variable that is given is that of a column which is registered then. -/
theorem exists_column_of_addColumn {name : Name} {optional : Bool} {v : Variable}
    {builder next : Builder} (ran : addColumn name optional builder = .ok v next) :
    ∃ column ∈ next.columns, column.var = v := by
  rcases addColumn_spec name optional builder with
    ⟨error, _, failed⟩ | ⟨place, column, _, known, found⟩ | ⟨place, _, _, registering⟩
  · rw [failed] at ran
    cases ran
  · rw [found] at ran
    cases ran
    obtain ⟨position, _, kept⟩ := Option.bind_eq_some_iff.mp known
    exact ⟨column, List.mem_of_getElem? kept, rfl⟩
  · rcases registerColumn_spec place optional builder with
      ⟨error, _, failed⟩ | ⟨binding, column, _, blocks, inGroup, _, _, _, _, registered⟩
    · rw [registering, failed] at ran
      cases ran
    · rw [registering, registered] at ran
      cases ran
      exact ⟨mention binding column inGroup, by simp [withColumn], rfl⟩

/-- Where no column is given, nothing has changed. -/
theorem addColumn_error_or_ok (name : Name) (optional : Bool) (builder : Builder) :
    (∃ error, addColumn name optional builder = .error error builder) ∨
      ∃ v next, addColumn name optional builder = .ok v next := by
  rcases addColumn_spec name optional builder with
    ⟨error, _, failed⟩ | ⟨_, column, _, _, ran⟩ | ⟨place, _, _, registering⟩
  · exact .inl ⟨error, failed⟩
  · exact .inr ⟨column.var, builder, ran⟩
  · rcases registerColumn_spec place optional builder with
      ⟨error, _, failed⟩ | ⟨_, _, _, _, _, _, _, _, _, ran⟩
    · exact .inl ⟨error, registering.trans failed⟩
    · exact .inr ⟨_, _, registering.trans ran⟩

/-- A display name that is chosen is free. -/
theorem chooseDisplayName_free {builder : Builder} {v : Variable} {wanted : Option String}
    {displayName : String} (chosen : builder.chooseDisplayName v wanted = .ok displayName) :
    displayName ∉ builder.displayNames := by
  cases wanted with
  | some name =>
      simp only [chooseDisplayName] at chosen
      split at chosen
      · contradiction
      · rename_i taken
        cases chosen
        simpa using taken
  | none =>
      simp only [chooseDisplayName] at chosen
      split at chosen
      · rename_i name found
        cases chosen
        simpa using List.find?_some found
      · contradiction

/-- Showing a variable adds a result column for it under a free name. -/
theorem addVar_eq_ok {v : Variable} {displayName : Option String} {builder next : Builder}
    (ran : addVar v displayName builder = .ok () next) :
    ∃ projection : Projection, projection.var = v ∧ projection.expression = none ∧
      projection.displayName ∉ builder.displayNames ∧
      next = builder.withProjection projection := by
  cases chosen : builder.chooseDisplayName v displayName with
  | error error => simp [addVar, chosen] at ran
  | ok name =>
      simp only [addVar, Run.get_bind_apply, chosen, Run.build_liftExcept_ok, pure_bind] at ran
      cases ran
      exact ⟨_, rfl, rfl, chooseDisplayName_free chosen, rfl⟩

/-- Showing a value adds a result column with the aggregate, or binds its
variable to any other value and adds a result column for the variable. -/
theorem addComputed_eq_ok {expr : Expr} {displayName : String} {v : Variable}
    {builder next : Builder} (ran : addComputed expr displayName builder = .ok v next) :
    ∃ projection : Projection, projection.var = Variable.ofText projection.displayName ∧
      projection.displayName ∉ builder.displayNames ∧
      ((expr.containsAggregate = true ∧ projection.expression = some expr ∧
          next = builder.withProjection projection) ∨
        (expr.containsAggregate = false ∧ projection.expression = none ∧
          next = { builder with
            binds := builder.binds ++ [(expr, projection.var)] }.withProjection projection)) := by
  by_cases taken : builder.displayNames.contains displayName = true
  · simp only [addComputed, Run.get_bind_apply, taken, if_true, Run.throw_bind,
      Run.throw_apply] at ran
    contradiction
  · have free : displayName ∉ builder.displayNames := by simpa using taken
    simp only [addComputed, Run.get_bind_apply, taken, Bool.false_eq_true, if_false] at ran
    cases aggregate : expr.containsAggregate with
    | true =>
        rw [aggregate] at ran
        cases ran
        exact ⟨_, rfl, free, .inl ⟨rfl, rfl, rfl⟩⟩
    | false =>
        rw [aggregate, if_neg Bool.false_ne_true, if_neg Bool.false_ne_true] at ran
        cases ran
        exact ⟨⟨Variable.ofText displayName, displayName, none, none, true⟩, rfl, free,
          .inr ⟨rfl, rfl, rfl⟩⟩

/-- The filter of a left-joined binding is put into its group, and that of any
other binding behind the filters of the pattern. -/
theorem addBindingFilter_eq_ok {id : Nat} {condition : Expr} {builder next : Builder}
    (ran : addBindingFilter id condition builder = .ok () next) :
    (∃ binding position group, builder.bindings[id]? = some binding ∧
        binding.group = some position ∧ builder.groupAt position = .ok group ∧
        next = builder.withGroupFilter position group condition) ∨
      next = { builder with filters := builder.filters ++ [condition] } := by
  cases bound : builder.bindings[id]? with
  | none => simp [addBindingFilter, bindingAt, bound] at ran
  | some binding =>
      simp only [addBindingFilter, Run.get_bind_apply, bindingAt, bound, Run.build_liftExcept_ok,
        pure_bind] at ran
      cases grouped : binding.group with
      | none =>
          rw [grouped] at ran
          cases ran
          exact .inr rfl
      | some position =>
          rw [grouped] at ran
          cases found : builder.groupAt position with
          | error error => simp [found] at ran
          | ok group =>
              simp only [found, Run.build_liftExcept_ok, pure_bind] at ran
              cases ran
              exact .inl ⟨binding, position, group, rfl, grouped, found, rfl⟩

/-- What is kept when a column is registered and shown is kept when all columns
are. -/
theorem keeps_addAllColumns {invariant : Builder → Prop}
    (kept : ∀ {name v before middle next}, invariant before →
      addColumn name false before = .ok v middle → addVar v none middle = .ok () next →
      invariant next)
    {pattern : Option Name} {before next : Builder} (holds : invariant before)
    (ran : addAllColumns pattern before = .ok () next) : invariant next := by
  have each : ∀ names start, invariant start → addEach names start = .ok () next →
      invariant next := by
    intro names
    induction names with
    | nil =>
        intro start holds ran
        cases ran
        exact holds
    | cons name rest ih =>
        intro start holds ran
        rw [addEach] at ran
        obtain ⟨v, _, added, ran⟩ := Run.bind_eq_ok_iff.mp ran
        obtain ⟨_, middle, shown, ran⟩ := Run.bind_eq_ok_iff.mp ran
        exact ih middle (kept holds added shown) ran
  cases targets : before.starTargets pattern with
  | error error => simp [addAllColumns, targets] at ran
  | ok names =>
      simp only [addAllColumns, Run.get_bind_apply, targets, Run.build_liftExcept_ok,
        pure_bind] at ran
      exact each _ before holds ran

/-! ## Operations make changes -/

theorem moves_addTable (tableName : Name) (asName : Option String) (optional : Bool) :
    Run.Moves Binds (addTable tableName asName optional) := by
  intro builder
  rcases addTable_spec tableName asName optional builder with
    ⟨error, _, failed⟩ | ⟨table, triples, resolved, free, filled, ran⟩
  · rw [Run.after_of_error failed]
  · rw [Run.after_of_ok ran]
    exact .single (.intro resolved free filled)

theorem moves_addColumn (name : Name) (optional : Bool) :
    Run.Moves Registers (addColumn name optional) := by
  intro builder
  rcases addColumn_spec name optional builder with
    ⟨error, _, failed⟩ | ⟨_, column, _, _, ran⟩ | ⟨place, _, fresh, registering⟩
  · rw [Run.after_of_error failed]
  · rw [Run.after_of_ok ran]
  · rcases registerColumn_spec place optional builder with
      ⟨error, _, failed⟩ | ⟨binding, column, triple, blocks, inGroup, bound, declared, filled,
        placed, ran⟩
    · rw [Run.after_of_error (registering.trans failed)]
    · rw [Run.after_of_ok (registering.trans ran)]
      exact .single (.intro fresh bound declared filled placed)

theorem moves_addVar (v : Variable) (displayName : Option String) :
    Run.Moves Fills (addVar v displayName) := by
  intro builder
  cases chosen : builder.chooseDisplayName v displayName with
  | error error =>
      have failed : addVar v displayName builder = .error error builder := by
        simp [addVar, chosen]
      rw [Run.after_of_error failed]
  | ok name =>
      obtain ⟨projection, named, ran⟩ : ∃ projection : Projection,
          projection.displayName = name ∧
            addVar v displayName builder = .ok () (builder.withProjection projection) := by
        simp only [addVar, Run.get_bind_apply, chosen, Run.build_liftExcept_ok, pure_bind]
        exact ⟨_, rfl, rfl⟩
      rw [Run.after_of_ok ran]
      refine .single (.projection projection ?_)
      rw [named]
      exact chooseDisplayName_free chosen

/-- A part outside the blocks is set. -/
theorem moves_modify {change : Builder → Builder}
    (outside : ∀ builder, Fills builder (change builder)) :
    Run.Moves Fills (modify change : Build Unit) :=
  fun builder => .single (outside builder)

theorem moves_addComputed (expr : Expr) (displayName : String) :
    Run.Moves Fills (addComputed expr displayName) := by
  intro builder
  by_cases taken : builder.displayNames.contains displayName = true
  · have failed : addComputed expr displayName builder =
        .error (.duplicateProjection displayName) builder := by
      simp only [addComputed, Run.get_bind_apply, taken, if_true, Run.throw_bind, Run.throw_apply]
    rw [Run.after_of_error failed]
  · -- An expression that is no aggregate is bound before its variable is shown.
    obtain ⟨binds, projection, named, ran⟩ : ∃ (binds : List (Expr × Variable))
        (projection : Projection), projection.displayName = displayName ∧
          addComputed expr displayName builder =
            .ok (Variable.ofText displayName)
              ({ builder with binds }.withProjection projection) := by
      simp only [addComputed, Run.get_bind_apply, taken, Bool.false_eq_true, if_false]
      cases aggregate : expr.containsAggregate with
      | true => exact ⟨builder.binds, _, rfl, rfl⟩
      | false =>
          exact ⟨builder.binds ++ [(expr, Variable.ofText displayName)], _, rfl, rfl⟩
    rw [Run.after_of_ok ran]
    have bound : Fills builder { builder with binds } :=
      .outside binds builder.filters builder.distinct builder.groupBy builder.having
        builder.orderBy builder.limit builder.offset
    have free : projection.displayName ∉ builder.displayNames := by
      rw [named]
      simpa using taken
    exact .tail (.single bound) (.projection projection free)

theorem settles_modify {change : Builder → Builder}
    (outside : ∀ builder, Settles builder (change builder)) :
    Run.Moves Settles (modify change : Build Unit) :=
  fun builder => .single (outside builder)

theorem settles_addFilter (condition : Expr) : Run.Moves Settles (addFilter condition) :=
  settles_modify fun _ => .outside _ _ _ _ _ _ _

theorem moves_addFilter (condition : Expr) : Run.Moves Fills (addFilter condition) :=
  (settles_addFilter condition).mono fun _ _ settles => settles.fills

theorem getElem?_of_bindingAt {builder : Builder} {id : Nat} {binding : Binding}
    (bound : builder.bindingAt id = .ok binding) : builder.bindings[id]? = some binding := by
  unfold bindingAt at bound
  split at bound
  · rename_i found
    cases bound
    exact found
  · contradiction

theorem settles_addBindingFilter (id : Nat) (condition : Expr) :
    Run.Moves Settles (addBindingFilter id condition) := by
  intro builder
  cases bound : builder.bindingAt id with
  | error error =>
      have failed : addBindingFilter id condition builder = .error error builder := by
        simp [addBindingFilter, bound]
      rw [Run.after_of_error failed]
  | ok binding =>
      cases grouped : binding.group with
      | none =>
          have outside : addBindingFilter id condition builder = addFilter condition builder := by
            simp [addBindingFilter, bound, grouped]
          have path := settles_addFilter condition builder
          rwa [Run.after, ← outside] at path
      | some position =>
          cases found : builder.groupAt position with
          | error error =>
              have failed : addBindingFilter id condition builder = .error error builder := by
                simp [addBindingFilter, bound, grouped, found]
              rw [Run.after_of_error failed]
          | ok group =>
              have ran : addBindingFilter id condition builder =
                  .ok () (builder.withGroupFilter position group condition) := by
                simp only [addBindingFilter, Run.get_bind_apply, bound, Run.build_liftExcept_ok,
                  pure_bind, grouped, found]
                rfl
              rw [Run.after_of_ok ran]
              exact .single (.condition condition (getElem?_of_bindingAt bound) grouped found)

theorem moves_addBindingFilter (id : Nat) (condition : Expr) :
    Run.Moves Fills (addBindingFilter id condition) :=
  (settles_addBindingFilter id condition).mono fun _ _ settles => settles.fills

theorem moves_addEach (names : List Name) : Run.Moves Fills (addEach names) := by
  induction names with
  | nil => exact .pure _
  | cons name rest ih =>
      have column : Run.Moves Fills (addColumn name false) :=
        (moves_addColumn name false).mono fun _ _ => .column
      exact .bind column fun v => .bind (moves_addVar v none) fun _ => ih

theorem moves_liftExcept {α : Type} {change : Builder → Builder → Prop}
    (result : Except QueryError α) : Run.Moves change (liftExcept result) := by
  cases result with
  | ok value => exact .pure value
  | error error => exact .throw error

theorem moves_addAllColumns (pattern : Option Name) :
    Run.Moves Fills (addAllColumns pattern) :=
  .bind .get fun _ => .bind (moves_liftExcept _) fun _ => moves_addEach _

/-! ## Reachable builders -/

/-- The operations on a builder. -/
inductive Operation where
  | addTable (name : Name) (asName : Option String) (optional : Bool)
  | addColumn (name : Name) (optional : Bool)
  | addAllColumns (pattern : Option Name)
  | addVar (v : Variable) (displayName : Option String)
  | addComputed (expr : Expr) (displayName : String)
  | addFilter (condition : Expr)
  | addBindingFilter (id : Nat) (condition : Expr)
  | addBind (expr : Expr) (v : Variable)
  | setDistinct (distinct : Bool)
  | addGroupBy (key : Expr)
  | addHaving (condition : Expr)
  | addOrderBy (expr : Expr) (ascending : Bool)
  | setLimit (limit : Option Nat)
  | setOffset (offset : Option Nat)

/-- Makes an operation and forgets its value. -/
def Operation.run : Operation → Build Unit
  | .addTable name asName optional => do
      let _ ← Builder.addTable name asName optional
  | .addColumn name optional => do
      let _ ← Builder.addColumn name optional
  | .addAllColumns pattern => Builder.addAllColumns pattern
  | .addVar v displayName => Builder.addVar v displayName
  | .addComputed expr displayName => do
      let _ ← Builder.addComputed expr displayName
  | .addFilter condition => Builder.addFilter condition
  | .addBindingFilter id condition => Builder.addBindingFilter id condition
  | .addBind expr v => Builder.addBind expr v
  | .setDistinct distinct => Builder.setDistinct distinct
  | .addGroupBy key => Builder.addGroupBy key
  | .addHaving condition => Builder.addHaving condition
  | .addOrderBy expr ascending => Builder.addOrderBy expr ascending
  | .setLimit limit => Builder.setLimit limit
  | .setOffset offset => Builder.setOffset offset

theorem moves_operation (operation : Operation) : Run.Moves Change operation.run := by
  have lift : ∀ {step : Build Unit}, Run.Moves Fills step → Run.Moves Change step :=
    fun moves => moves.mono fun _ _ => .fill
  cases operation with
  | addTable name asName optional =>
      exact .bind ((moves_addTable name asName optional).mono fun _ _ => .table) fun _ => .pure _
  | addColumn name optional =>
      exact .bind ((moves_addColumn name optional).mono fun _ _ registers =>
        .fill (.column registers)) fun _ => .pure _
  | addAllColumns pattern => exact lift (moves_addAllColumns pattern)
  | addVar v displayName => exact lift (moves_addVar v displayName)
  | addComputed expr displayName =>
      exact lift (.bind (moves_addComputed expr displayName) fun _ => .pure _)
  | addFilter condition => exact lift (moves_addFilter condition)
  | addBindingFilter id condition => exact lift (moves_addBindingFilter id condition)
  | addBind expr v => exact lift (moves_modify fun _ => .outside _ _ _ _ _ _ _ _)
  | setDistinct distinct => exact lift (moves_modify fun _ => .outside _ _ _ _ _ _ _ _)
  | addGroupBy key => exact lift (moves_modify fun _ => .outside _ _ _ _ _ _ _ _)
  | addHaving condition => exact lift (moves_modify fun _ => .outside _ _ _ _ _ _ _ _)
  | addOrderBy expr ascending => exact lift (moves_modify fun _ => .outside _ _ _ _ _ _ _ _)
  | setLimit limit => exact lift (moves_modify fun _ => .outside _ _ _ _ _ _ _ _)
  | setOffset offset => exact lift (moves_modify fun _ => .outside _ _ _ _ _ _ _ _)

/-- The builders that operations lead to from an empty builder over a catalog,
whether the operations succeed or fail. -/
inductive Reachable (catalog : Catalog) : Builder → Prop
  | empty (defaultSchema : Option String) (useService : Bool) :
      Reachable catalog { catalog, defaultSchema, useService }
  | step {builder : Builder} (reachable : Reachable catalog builder) (operation : Operation) :
      Reachable catalog (Run.after operation.run builder)

/-- The builder after operations, whether they succeed or fail. -/
def afterAll (operations : List Operation) (builder : Builder) : Builder :=
  operations.foldl (fun before operation => Run.after operation.run before) builder

theorem afterAll_append (operations further : List Operation) (builder : Builder) :
    afterAll (operations ++ further) builder = afterAll further (afterAll operations builder) :=
  List.foldl_append

theorem Reachable.afterAll {catalog : Catalog} {builder : Builder}
    (reachable : Reachable catalog builder) (operations : List Operation) :
    Reachable catalog (afterAll operations builder) := by
  induction operations generalizing builder with
  | nil => exact reachable
  | cons operation rest ih => exact ih (reachable.step operation)

/-- What holds of the empty builders over a catalog and is kept by every change
holds of all reachable builders. -/
theorem Reachable.keeps {catalog : Catalog} {invariant : Builder → Prop}
    (holds : ∀ defaultSchema useService, invariant { catalog, defaultSchema, useService })
    (kept : ∀ before next, Change before next → invariant before → invariant next)
    {builder : Builder} (reachable : Reachable catalog builder) : invariant builder := by
  induction reachable with
  | empty defaultSchema useService => exact holds defaultSchema useService
  | step _ operation ih => exact Run.kept_along kept (moves_operation operation _) ih

/-! ## The query -/

/-- The blocks stand first among the elements. -/
theorem elements_eq (builder : Builder) :
    builder.elements =
      (builder.blocks.filter (fun block => !block.isVoid)).map Element.block ++
        (builder.binds.map (fun entry => Element.bind entry.1 entry.2) ++
          builder.filters.map Element.filter) := by
  rw [elements, List.append_assoc]

/-- A closed query holds the parts of the builder. -/
theorem parts_of_build {builder : Builder} {result : Query}
    (built : builder.build = .ok result) :
    result.elements = builder.elements ∧ result.columns = builder.columns ∧
      result.projections = builder.projections ∧ result.groupBy = builder.groupBy ∧
      result.having = builder.having ∧ result.orderBy = builder.orderBy := by
  unfold build at built
  split at built
  · contradiction
  · cases built
    exact ⟨rfl, rfl, rfl, rfl, rfl, rfl⟩

theorem elements_of_build {builder : Builder} {result : Query}
    (built : builder.build = .ok result) : result.elements = builder.elements :=
  (parts_of_build built).1

end Builder

end TripleTables
