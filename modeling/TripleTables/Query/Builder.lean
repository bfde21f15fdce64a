import TripleTables.Catalog.Basic
import TripleTables.Query.Basic

/-!
# Building queries

A builder gathers the parts of one query.  Tables are bound first, columns are
registered when an expression mentions them, and `Builder.build` closes the
query.  Where triples go:

* the triples of a table's own templates and of its columns that are never
  null stand in required blocks, and neighbours share a block;
* a nullable column, and one that is wanted as optional, gets an optional
  group of its own;
* every triple of a table on the right of a left join stands in the optional
  group of that table, and its nullable columns one level deeper.

Binds come after the blocks, and filters last.
-/

namespace TripleTables

open TripleTables.Graph

/-- What can go wrong while a query is built. -/
inductive QueryError where
  | unknownTable (name : Name)
  | unknownColumn (name : Name)
  | ambiguous (ambiguity : Ambiguity)
  | duplicateAlias (tableAlias : String)
  | duplicateProjection (name : String)
  | malformed (error : TemplateError)
  | emptyFrom
  | unknownBinding (id : Nat)
  /-- A column position outside its table. -/
  | catalog (error : CatalogError)
deriving DecidableEq, Repr

/-- The error in words. -/
def QueryError.message : QueryError → String
  | .unknownTable name => "Unknown table `" ++ name.display ++ "`"
  | .unknownColumn name => "Unknown column `" ++ name.display ++ "`"
  | .ambiguous ambiguity => ambiguity.message
  | .duplicateAlias tableAlias => "Table alias `" ++ tableAlias ++ "` is already in use"
  | .duplicateProjection name => "Result column `" ++ name ++ "` is already projected"
  | .malformed error => error.message
  | .emptyFrom => "Query has no FROM clause tables"
  | .unknownBinding id => "No table binding with id " ++ toString id
  | .catalog error => error.message

/-- One use of a table in a query.  Its name is the table's name with the alias
for the table segment. -/
structure Binding where
  id : Nat
  name : Name
  table : Table
  /-- The position of the binding's optional group among the blocks, for the
  right side of a left join. -/
  group : Option Nat
deriving DecidableEq, Repr

namespace Binding

/-- The variable for a row of the table. -/
def subject (binding : Binding) : Variable :=
  Variable.ofName binding.name

/-- The name by which the query calls the table. -/
def tableAlias (binding : Binding) : String :=
  binding.name.shortName

/-- The binding is the right side of a left join. -/
def isOptional (binding : Binding) : Bool :=
  binding.group.isSome

/-- The name of a column of the binding. -/
def columnName (binding : Binding) (column : String) : Name :=
  binding.name.withColumn column

/-- The names of the binding's columns, in order. -/
def columnNames (binding : Binding) : List Name :=
  binding.table.columns.map (fun column => binding.columnName column.shortName)

end Binding

/-- The parts of a query under construction. -/
structure Builder where
  catalog : Catalog
  /-- The schema that is tried first for a table name without one. -/
  defaultSchema : Option String := none
  /-- Let the catalog's endpoint evaluate the pattern. -/
  useService : Bool := false
  bindings : List Binding := []
  columns : List MentionedColumn := []
  /-- The position in `columns` of a binding's column. -/
  columnIndex : List ((Nat × Nat) × Nat) := []
  blocks : List Block := []
  binds : List (Expr × Variable) := []
  filters : List Expr := []
  projections : List Projection := []
  /-- The display names that are taken. -/
  displayNames : List String := []
  distinct : Bool := false
  groupBy : List Expr := []
  having : List Expr := []
  orderBy : List OrderKey := []
  limit : Option Nat := none
  offset : Option Nat := none

/-- Steps of construction.  The builder after a step that failed is kept. -/
abbrev Build := EStateM QueryError Builder

namespace Builder

/-- The value of a computation that does not touch the builder. -/
def liftExcept {α : Type} : Except QueryError α → Build α
  | .ok value => pure value
  | .error error => throw error

/-- The binding with an id. -/
def bindingAt (builder : Builder) (id : Nat) : Except QueryError Binding :=
  match builder.bindings[id]? with
  | some binding => .ok binding
  | none => .error (.unknownBinding id)

/-- The name of the column that a variable stands for. -/
def columnOf (builder : Builder) : ColumnOf :=
  fun v => (builder.columns.find? (fun column => column.var = v)).map MentionedColumn.name

/-- The variable that is shown under a display name. -/
def projectionVariable? (builder : Builder) (displayName : String) : Option Variable :=
  (builder.projections.find? (fun projection => projection.displayName == displayName)).map
    Projection.var

/-! ## Tables -/

/-- The one table that a name means in the catalog. -/
def lookupTable (builder : Builder) (name : Name) : Except QueryError (Option Table) :=
  (builder.catalog.lookupTable name).mapError .ambiguous

/-- The table that a name without a schema means in the default schema. -/
def lookupInDefault (builder : Builder) (name : Name) : Except QueryError (Option Table) :=
  match name.schema, builder.defaultSchema with
  | none, some schema => builder.lookupTable (name.withSchema schema)
  | _, _ => .ok none

/-- The table that a name means.  A name without a schema is looked for in the
default schema first. -/
def resolveTable (builder : Builder) (name : Name) : Except QueryError Table := do
  match ← builder.lookupInDefault name with
  | some table => return table
  | none =>
      match ← builder.lookupTable name with
      | some table => return table
      | none => throw (.unknownTable name)

/-- The blocks with a triple that has to match added at the end. -/
def pushRequired : List Block → Triple → List Block
  | [], triple => [.required [triple]]
  | [.required triples], triple => [.required (triples ++ [triple])]
  | block :: rest, triple => block :: pushRequired rest triple

/-- Binds a table under an alias, which is the table's own name if none is
given.  An optional table is the right side of a left join. -/
def addTable (tableName : Name) (tableAlias : Option String) (optional : Bool) : Build Binding := do
  let builder ← get
  let table ← liftExcept (builder.resolveTable tableName)
  let tableAlias := tableAlias.getD table.name.shortName
  if builder.bindings.any (fun binding => binding.tableAlias == tableAlias) then
    throw (.duplicateAlias tableAlias)
  let name := Name.ofSegments table.name.catalog table.name.schema (some tableAlias) none
  let triples ← liftExcept ((table.triples (Variable.ofName name)).mapError .malformed)
  let group := if optional then some builder.blocks.length else none
  let blocks :=
    if optional then builder.blocks ++ [.optional { triples }]
    else triples.foldl pushRequired builder.blocks
  let binding : Binding := { id := builder.bindings.length, name, table, group }
  set { builder with blocks, bindings := builder.bindings ++ [binding] }
  liftExcept ((← get).bindingAt binding.id)

/-! ## Columns -/

/-- The columns of one binding with their places. -/
def bindingCandidates (binding : Binding) : List (Name × (Nat × Nat)) :=
  binding.columnNames.mapIdx (fun position name => (name, (binding.id, position)))

/-- The columns of all bindings with their places. -/
def candidates (builder : Builder) : NameMap (Nat × Nat) :=
  NameMap.ofList (builder.bindings.flatMap bindingCandidates)

/-- The place of the one column that a name means. -/
def resolveColumn (builder : Builder) (name : Name) : Except QueryError (Nat × Nat) := do
  match ← (builder.candidates.find? name).mapError .ambiguous with
  | some place => return place
  | none => throw (.unknownColumn name)

/-- The column that has been registered for a place. -/
def registered? (builder : Builder) (place : Nat × Nat) : Option MentionedColumn := do
  let position ← builder.columnIndex.lookup place
  builder.columns[position]?

/-- The triple that binds a column to a variable. -/
def columnTriple (binding : Binding) (column : Column) (v : Variable) :
    Except TemplateError Triple := do
  let template ← column.readTemplate
  match ← template.instantiate binding.subject (some (.variable v)) with
  | some triple => return triple
  | none =>
      throw { template := template.source
              fault := .commentColumn (binding.columnName column.shortName) }

/-- The optional group at a position among the blocks. -/
def groupAt (builder : Builder) (position : Nat) : Except QueryError OptionalGroup :=
  match builder.blocks[position]? with
  | some (.optional group) => .ok group
  | _ => .error (.unknownBinding position)

/-- The group with the triple of a column added. -/
def placeInGroup (nullable : Bool) (triple : Triple) (group : OptionalGroup) : OptionalGroup :=
  if nullable then { group with nested := group.nested ++ [[triple]] }
  else { group with triples := group.triples ++ [triple] }

/-- The blocks with the triple of a column added, and whether it stands in an
optional group. -/
def placeColumn (builder : Builder) (binding : Binding) (nullable optional : Bool)
    (triple : Triple) : Except QueryError (List Block × Bool) :=
  match binding.group with
  | some position => do
      let group ← builder.groupAt position
      return (builder.blocks.set position (.optional (placeInGroup nullable triple group)), true)
  | none =>
      if nullable || optional then
        .ok (builder.blocks ++ [.optional (.single triple)], true)
      else .ok (pushRequired builder.blocks triple, false)

/-- Registers the column at a place that has not been registered yet. -/
def registerColumn (place : Nat × Nat) (optional : Bool) : Build Variable := do
  let builder ← get
  let binding ← liftExcept (builder.bindingAt place.1)
  let column ← liftExcept ((binding.table.columnAt place.2).mapError .catalog)
  let name := binding.columnName column.shortName
  let v := Variable.ofName name
  let triple ← liftExcept ((columnTriple binding column v).mapError .malformed)
  let (blocks, inGroup) ←
    liftExcept (builder.placeColumn binding column.nullable optional triple)
  let mentioned : MentionedColumn :=
    { name
      var := v
      sqlType := column.sqlType
      nullable := column.nullable
      optional := inGroup }
  set { builder with
        blocks
        columnIndex := builder.columnIndex ++ [(place, builder.columns.length)]
        columns := builder.columns ++ [mentioned] }
  return v

/-- The variable of the column that a name means.  The column's triple is added
the first time. -/
def addColumn (name : Name) (optional : Bool) : Build Variable := do
  let builder ← get
  let place ← liftExcept (builder.resolveColumn name)
  match builder.registered? place with
  | some column => return column.var
  | none => registerColumn place optional

/-! ## Result columns -/

/-- The display names that a variable may take, in order of preference: the
column's own, the column's with the alias, and the variable's. -/
def displayCandidates (builder : Builder) (v : Variable) : List String :=
  match builder.columnOf v with
  | some name =>
      [ name.shortName
      , (Name.ofSegments none none name.table name.column).spelled
      , v.name ]
  | none => [v.name]

/-- The display name of a variable: the one that is asked for, which has to be
free, or the first free candidate. -/
def chooseDisplayName (builder : Builder) (v : Variable) :
    Option String → Except QueryError String
  | some name =>
      if builder.displayNames.contains name then .error (.duplicateProjection name)
      else .ok name
  | none =>
      match (builder.displayCandidates v).find? (fun name => !builder.displayNames.contains name)
        with
      | some name => .ok name
      | none => .error (.duplicateProjection v.name)

/-- The builder with one more result column. -/
def withProjection (builder : Builder) (projection : Projection) : Builder :=
  { builder with
    projections := builder.projections ++ [projection]
    displayNames := builder.displayNames ++ [projection.displayName] }

/-- Shows a variable as a result column. -/
def addVar (v : Variable) (displayName : Option String) : Build Unit := do
  let builder ← get
  let displayName ← liftExcept (builder.chooseDisplayName v displayName)
  let column := builder.columns.find? (fun column => column.var = v)
  set (builder.withProjection
    { var := v
      displayName
      expression := none
      sqlType := column.map MentionedColumn.sqlType
      nullable := (column.map MentionedColumn.optional).getD true })

/-- Shows the value of an expression as a result column.  An aggregate is
computed where it is shown; any other value is bound in the pattern. -/
def addComputed (expr : Expr) (displayName : String) : Build Variable := do
  let builder ← get
  if builder.displayNames.contains displayName then
    throw (.duplicateProjection displayName)
  let v := Variable.ofText displayName
  let aggregate := expr.containsAggregate
  let builder :=
    if aggregate then builder else { builder with binds := builder.binds ++ [(expr, v)] }
  set (builder.withProjection
    { var := v
      displayName
      expression := if aggregate then some expr else none
      sqlType := none
      nullable := true })
  return v

/-- Registers and shows columns, in order. -/
def addEach : List Name → Build Unit
  | [] => pure ()
  | name :: rest => do
      let v ← addColumn name false
      addVar v none
      addEach rest

/-- The names of the bindings that a pattern covers, which has to be exactly
one; the names of all bindings if there is no pattern. -/
def starTargets (builder : Builder) (pattern : Option Name) : Except QueryError (List Name) :=
  let names := builder.bindings.map Binding.name
  match pattern with
  | none => .ok names
  | some pattern =>
      match names.filter pattern.covers with
      | [] => .error (.unknownTable pattern)
      | [name] => .ok [name]
      | several => .error (.ambiguous ⟨pattern, several.length⟩)

/-- The columns of the first binding with a name. -/
def columnsOfBinding (builder : Builder) (name : Name) : List Name :=
  match builder.bindings.find? (fun binding => binding.name = name) with
  | some binding => binding.columnNames
  | none => []

/-- Registers and shows every column of the binding that a pattern covers, or
of all bindings, in the order of bindings and columns. -/
def addAllColumns (pattern : Option Name) : Build Unit := do
  let builder ← get
  let targets ← liftExcept (builder.starTargets pattern)
  addEach (targets.flatMap builder.columnsOfBinding)

/-! ## Conditions, groups, order and page -/

/-- Adds a filter to the pattern. -/
def addFilter (condition : Expr) : Build Unit :=
  modify fun builder => { builder with filters := builder.filters ++ [condition] }

/-- Adds a filter to the optional group of a binding; the filter of a binding
without one is added to the pattern. -/
def addBindingFilter (id : Nat) (condition : Expr) : Build Unit := do
  let builder ← get
  let binding ← liftExcept (builder.bindingAt id)
  match binding.group with
  | some position =>
      let group ← liftExcept (builder.groupAt position)
      let group := { group with filters := group.filters ++ [condition] }
      set { builder with blocks := builder.blocks.set position (.optional group) }
  | none => addFilter condition

/-- Binds a variable to the value of an expression. -/
def addBind (expr : Expr) (v : Variable) : Build Unit :=
  modify fun builder => { builder with binds := builder.binds ++ [(expr, v)] }

/-- Shows equal rows once. -/
def setDistinct (distinct : Bool) : Build Unit :=
  modify fun builder => { builder with distinct }

/-- Adds a key of the groups. -/
def addGroupBy (key : Expr) : Build Unit :=
  modify fun builder => { builder with groupBy := builder.groupBy ++ [key] }

/-- Adds a condition on the groups. -/
def addHaving (condition : Expr) : Build Unit :=
  modify fun builder => { builder with having := builder.having ++ [condition] }

/-- Adds a key of the order. -/
def addOrderBy (expr : Expr) (ascending : Bool) : Build Unit :=
  modify fun builder => { builder with orderBy := builder.orderBy ++ [⟨expr, ascending⟩] }

/-- Sets the number of rows to keep. -/
def setLimit (limit : Option Nat) : Build Unit :=
  modify fun builder => { builder with limit }

/-- Sets the number of rows to skip. -/
def setOffset (offset : Option Nat) : Build Unit :=
  modify fun builder => { builder with offset }

/-! ## Closing -/

/-- The elements of the pattern: blocks that hold something, binds, filters. -/
def elements (builder : Builder) : List Element :=
  (builder.blocks.filter (fun block => !block.isVoid)).map Element.block ++
    builder.binds.map (fun (expr, v) => Element.bind expr v) ++
    builder.filters.map Element.filter

/-- The query that has been gathered. -/
def build (builder : Builder) : Except QueryError Query :=
  if builder.bindings.isEmpty then .error .emptyFrom
  else
    .ok
      { prefixes := builder.catalog.prefixes
        service := if builder.useService then builder.catalog.endpoint else none
        distinct := builder.distinct
        projections := builder.projections
        elements := builder.elements
        groupBy := builder.groupBy
        having := builder.having
        orderBy := builder.orderBy
        limit := builder.limit
        offset := builder.offset
        columns := builder.columns }

end Builder

end TripleTables
