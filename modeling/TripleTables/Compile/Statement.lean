import TripleTables.Compile.Expression
import TripleTables.Sparql.Query
import TripleTables.Sql.Statement

/-!
# Compiling statements

The clauses of a statement in the order in which they are compiled: the tables
and joins, the select list, the conditions of the joins, the condition on
rows, the groups and the condition on them, the order, the page.
-/

namespace TripleTables

open TripleTables.Graph

/-- How statements are compiled. -/
structure CompileOptions where
  /-- The schema that is tried first for a table name without one. -/
  defaultSchema : Option String := none
  /-- Let the catalog's endpoint evaluate the pattern. -/
  useService : Bool := false
deriving DecidableEq, Repr

/-- What compiles statements: a catalog, a table of functions and options. -/
structure Compiler where
  catalog : Catalog
  functions : FunctionTable := .standard
  options : CompileOptions := {}

namespace Compile

/-! ## Tables and joins -/

/-- The name of a table as it was written. -/
def tableName (parts : Sql.ObjectName) : Except CompileError Name :=
  match Name.ofTableParts? parts with
  | some name => .ok name
  | none => .error (.unsupported (.tableName parts) none)

/-- Binds what rows are drawn from and gives the binding's id. -/
def bindSource (optional : Bool) : Sql.Source → Compile Nat
  | .table parts asName => do
      let name ← liftExcept (tableName parts)
      let binding ← ofBuild (Builder.addTable name asName optional)
      return binding.id
  | .derived _ _ => throw (.unsupported .derivedTable none)

/-- The conditions of the joins that are still to be compiled. -/
structure Conditions where
  /-- Conditions of inner joins. -/
  inner : List Sql.Expr := []
  /-- Conditions of left joins, with the ids of the right sides. -/
  left : List (Nat × Sql.Expr) := []

/-- The conditions of two lists of joins. -/
def Conditions.append (first second : Conditions) : Conditions :=
  ⟨first.inner ++ second.inner, first.left ++ second.left⟩

/-- Binds the source of a join and gives the condition of the join. -/
def bindJoin (join : Sql.Join) : Compile Conditions :=
  match join.rule with
  | .cross => do
      let _ ← bindSource false join.source
      return {}
  | .on .inner condition => do
      let _ ← bindSource false join.source
      return { inner := condition.toList }
  | .on .leftOuter condition => do
      let id ← bindSource true join.source
      return { left := condition.toList.map (fun e => (id, e)) }
  | .on kind _ => throw (.unsupported (.join kind) none)

/-- Binds the sources of some joins. -/
def bindJoins : List Sql.Join → Compile Conditions
  | [] => pure {}
  | join :: rest => do
      let first ← bindJoin join
      let others ← bindJoins rest
      return first.append others

/-- Binds the sources of a from clause. -/
def bindSources : List Sql.SourceWithJoins → Compile Conditions
  | [] => pure {}
  | entry :: rest => do
      let _ ← bindSource false entry.source
      let first ← bindJoins entry.joins
      let others ← bindSources rest
      return first.append others

/-! ## The select list -/

/-- Adds the columns of one item of the select list; `position` counts the
items from one. -/
def addItem (functions : FunctionTable) (position : Nat) : Sql.SelectItem → Compile Unit
  | .wildcard => ofBuild (Builder.addAllColumns none)
  | .qualifiedWildcard parts => do
      let pattern ← liftExcept (tableName parts)
      ofBuild (Builder.addAllColumns (some pattern))
  | .expr e asName => do
      let mode : Mode := { functions, clause := "select list", allowAggregates := true }
      match ← expression mode e with
      | .variable v => ofBuild (Builder.addVar v asName)
      | computed => do
          let display := asName.getD ("expr" ++ toString position)
          let _ ← ofBuild (Builder.addComputed computed display)

/-- Adds the items of a select list from a position on. -/
def addItems (functions : FunctionTable) : Nat → List Sql.SelectItem → Compile Unit
  | _, [] => pure ()
  | position, item :: rest => do
      addItem functions position item
      addItems functions (position + 1) rest

/-! ## Conditions -/

/-- Adds conditions of inner joins as filters. -/
def addInnerConditions (functions : FunctionTable) (conditions : List Sql.Expr) :
    Compile Unit :=
  conditions.forM fun e => do
    let condition ← expression { functions, clause := "ON clause" } e
    ofBuild (Builder.addFilter condition)

/-- Adds conditions of left joins as filters of their groups. -/
def addLeftConditions (functions : FunctionTable) (conditions : List (Nat × Sql.Expr)) :
    Compile Unit :=
  conditions.forM fun (id, e) => do
    let condition ←
      expression { functions, clause := "ON clause", optionalColumns := true } e
    ofBuild (Builder.addBindingFilter id condition)

/-- Adds the condition on rows. -/
def addCondition (functions : FunctionTable) (condition : Option Sql.Expr) : Compile Unit :=
  condition.forM fun e => do
    let condition ← expression { functions, clause := "WHERE clause" } e
    ofBuild (Builder.addFilter condition)

/-! ## Groups and order -/

/-- Adds the keys of the groups. -/
def addGroupKeys (functions : FunctionTable) (keys : List Sql.Expr) : Compile Unit :=
  keys.forM fun e => do
    let key ← expression { functions, clause := "GROUP BY clause", resolveAliases := true } e
    ofBuild (Builder.addGroupBy key)

/-- Adds the condition on the groups. -/
def addHaving (functions : FunctionTable) (condition : Option Sql.Expr) : Compile Unit :=
  condition.forM fun e => do
    let mode : Mode :=
      { functions, clause := "HAVING clause", allowAggregates := true, resolveAliases := true }
    let condition ← expression mode e
    ofBuild (Builder.addHaving condition)

/-- The variable of the result column at a position counted from one. -/
def projectionAt (builder : Builder) (position : Int) : Except CompileError Variable :=
  let found := if position ≤ 0 then none else builder.projections[(position - 1).toNat]?
  match found with
  | some projection => .ok projection.var
  | none => .error (.unsupported (.orderPosition position) none)

/-- The variable of an order key that names a result column or its position. -/
def orderVariable? (builder : Builder) : Sql.Expr → Except CompileError (Option Variable)
  | .column [name] => .ok (builder.projectionVariable? name)
  | .literal (.integer position) => some <$> projectionAt builder position
  | _ => .ok none

/-- The expression of an order key. -/
def orderKey (functions : FunctionTable) (e : Sql.Expr) : Compile Expr := do
  let builder ← get
  match ← liftExcept (orderVariable? builder e) with
  | some v => return .variable v
  | none => expression { functions, clause := "ORDER BY clause", allowAggregates := true } e

/-- Adds the keys of the order. -/
def addOrderKeys (functions : FunctionTable) (keys : List Sql.OrderItem) : Compile Unit :=
  keys.forM fun key => do
    let e ← orderKey functions key.expr
    ofBuild (Builder.addOrderBy e key.ascending)

/-! ## Statements -/

/-- Compiles the clauses of a statement. -/
def clauses (functions : FunctionTable) (query : Sql.Query) : Compile Unit := do
  if query.sources.isEmpty then
    throw (.query .emptyFrom)
  let conditions ← bindSources query.sources
  ofBuild (Builder.setDistinct query.distinct)
  addItems functions 1 query.items
  addInnerConditions functions conditions.inner
  addLeftConditions functions conditions.left
  addCondition functions query.condition
  addGroupKeys functions query.groupBy
  addHaving functions query.having
  addOrderKeys functions query.orderBy
  ofBuild (Builder.setLimit query.limit)
  ofBuild (Builder.setOffset query.offset)

end Compile

namespace Compiler

/-- The builder that a compilation starts with. -/
def start (compiler : Compiler) : Builder :=
  { catalog := compiler.catalog
    defaultSchema := compiler.options.defaultSchema
    useService := compiler.options.useService }

/-- Compiles a statement that has been read. -/
def compile (compiler : Compiler) (query : Sql.Query) : Except CompileError Query :=
  match Compile.clauses compiler.functions query compiler.start with
  | .ok _ builder => builder.build.mapError .query
  | .error error _ => .error error

/-- Reads and compiles a statement. -/
def compileText (compiler : Compiler) (text : String) : Except CompileError Query := do
  let query ← (Sql.parse text).mapError .ofReading
  compiler.compile query

end Compiler

end TripleTables
