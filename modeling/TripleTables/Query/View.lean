import TripleTables.Catalog.Basic
import TripleTables.Query.Basic

/-!
# Queries as tables

A compiled query may be shown as a table: its columns are the columns of the
result.  Expressions over the query's own columns are renamed to the name of
the view.
-/

namespace TripleTables

open TripleTables.Graph

/-- A compiled query under the name of a table. -/
structure View where
  query : Query
  table : Table
  outerNames : Renaming

namespace View

/-- The names of the bindings that the query's columns belong to, each once,
in order. -/
def bindingNames (query : Query) : List Name :=
  (query.columns.map (fun column => column.name.withoutColumn)).eraseDups

/-- The query as a table with the given name. -/
def ofQuery (name : Name) (query : Query) : View :=
  let tableName := name.withoutColumn
  { query
    table := Table.ofColumns tableName (query.projections.map fun projection =>
      ( projection.displayName
      , projection.sqlType.getD Column.defaultType
      , projection.nullable ))
    outerNames := ⟨(bindingNames query).map (fun inner => (inner, tableName))⟩ }

/-- The outer variable of an inner one.  A variable that stands for no column
stays. -/
def outerVariable (view : View) (inner : Variable) : Variable :=
  view.outerNames.mapVariable view.query.columnOf inner

/-- The expression in the words of the outer query. -/
def rename (view : View) (e : Expr) : Expr :=
  view.outerNames.apply view.query.columnOf e

/-- The query's filters in the words of the outer query. -/
def outerFilters (view : View) : List Expr :=
  view.query.filters.map view.rename

end View

end TripleTables
