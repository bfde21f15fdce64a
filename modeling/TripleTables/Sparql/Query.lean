import TripleTables.Query.Basic
import TripleTables.Sparql.Expr

/-!
# The text of queries

A query is written with one pattern element a line, indented by the depth of
the braces around it.
-/

namespace TripleTables.Sparql

open TripleTables.Graph

/-- Why a query cannot be written. -/
inductive RenderError where
  | emptyProjection
  /-- A result column would take the name of a variable of the pattern. -/
  | invalidDisplayName (name : String)
  | emptyOptionalGroup
deriving DecidableEq, Repr

/-- The error in words. -/
def RenderError.message : RenderError → String
  | .emptyProjection => "Query projects no columns (SELECT list is empty)"
  | .invalidDisplayName name => "Result name `" ++ name ++ "` clashes with a pattern variable"
  | .emptyOptionalGroup => "Optional group has nothing to render"

/-! ## Lines -/

/-- The indentation at a depth. -/
def indent (depth : Nat) : List Char :=
  List.replicate (2 * depth) ' '

/-- An indented line. -/
def line (depth : Nat) (text : List Char) : List Char :=
  indent depth ++ text ++ ['\n']

/-- The lines of some triples. -/
def tripleLines (depth : Nat) (triples : List Triple) : List Char :=
  triples.flatMap (fun triple => line depth triple.text.toList)

/-- The line that opens an optional group. -/
def openOptional : List Char := "OPTIONAL \x7b".toList

/-- The line that closes a group. -/
def closeGroup : List Char := "\x7d".toList

/-- The line of a filter. -/
def filterLine (depth : Nat) (condition : Expr) : List Char :=
  line depth ("FILTER ".toList ++ bracketedChars condition)

/-- The lines of a nested optional block. -/
def nestedLines (depth : Nat) (triples : List Triple) : List Char :=
  line depth openOptional ++ tripleLines (depth + 1) triples ++ line depth closeGroup

/-- The lines of an optional group, which has to hold something. -/
def groupLines (depth : Nat) (group : OptionalGroup) : Except RenderError (List Char) :=
  if group.isEmpty then .error .emptyOptionalGroup
  else
    .ok (line depth openOptional ++ tripleLines (depth + 1) group.triples ++
      group.nested.flatMap (nestedLines (depth + 1)) ++
      group.filters.flatMap (filterLine (depth + 1)) ++ line depth closeGroup)

/-- The lines of an element. -/
def elementLines (depth : Nat) : Element → Except RenderError (List Char)
  | .block (.required triples) => .ok (tripleLines depth triples)
  | .block (.optional group) => groupLines depth group
  | .bind expr v =>
      .ok (line depth ("BIND(".toList ++ unwrapped (exprChars expr) ++ " AS ".toList ++
        v.text.toList ++ [')']))
  | .filter condition => .ok (filterLine depth condition)

/-- The lines of the elements. -/
def elementsLines (depth : Nat) (elements : List Element) : Except RenderError (List Char) := do
  return (← elements.mapM (elementLines depth)).flatten

/-! ## Clauses -/

/-- A result column. -/
def projectionChars (projection : Projection) : List Char :=
  match projection.expression with
  | some expression =>
      '(' :: unwrapped (exprChars expression) ++ " AS ".toList ++ projection.var.text.toList ++
        [')']
  | none =>
      if projection.displayName = projection.var.name then projection.var.text.toList
      else
        '(' :: projection.var.text.toList ++ " AS ".toList ++
          (Variable.ofText projection.displayName).text.toList ++ [')']

/-- A result column. -/
def projectionText (projection : Projection) : String :=
  String.ofList (projectionChars projection)

/-- The result column takes a new name. -/
def isRenamed (projection : Projection) : Bool :=
  projection.expression.isNone && projection.displayName != projection.var.name

/-- The display name of a result column is free: no column of the pattern has
the variable for it. -/
def checkDisplayName (columns : List MentionedColumn) (projection : Projection) :
    Except RenderError Unit :=
  if isRenamed projection &&
      columns.any (fun column => column.var = Variable.ofText projection.displayName) then
    .error (.invalidDisplayName projection.displayName)
  else .ok ()

/-- The line of a prefix. -/
def prefixLine (entry : String × String) : List Char :=
  line 0 ("PREFIX ".toList ++ entry.1.toList ++ ": <".toList ++ entry.2.toList ++ ['>'])

/-- The line of the select clause. -/
def selectLine (query : Query) : List Char :=
  line 0 ((if query.distinct then "SELECT DISTINCT " else "SELECT ").toList ++
    joined [' '] (query.projections.map projectionChars))

/-- The lines of the pattern. -/
def patternLines (query : Query) : Except RenderError (List Char) :=
  match query.service with
  | some endpoint => do
      let inner ← elementsLines 2 query.elements
      return line 1 ("SERVICE <".toList ++ endpoint.toList ++ "> \x7b".toList) ++ inner ++
        line 1 closeGroup
  | none => elementsLines 1 query.elements

/-- A line with a keyword before some keys, if there are any. -/
def keysLine (keyword : String) : List (List Char) → List Char
  | [] => []
  | keys => line 0 (keyword.toList ++ joined [' '] keys)

/-- A key of the groups: a variable stands bare, all else in brackets. -/
def groupKeyChars : Expr → List Char
  | .variable v => v.text.toList
  | other => bracketedChars other

/-- A key of the order. -/
def orderKeyChars (key : OrderKey) : List Char :=
  (if key.ascending then "ASC" else "DESC").toList ++ bracketedChars key.expr

/-- A line with a keyword and a number, if there is one. -/
def countLine (keyword : String) : Option Nat → List Char
  | some count => line 0 (keyword.toList ++ (toString count).toList)
  | none => []

/-- The query as SPARQL writes it, as characters. -/
def queryChars (query : Query) : Except RenderError (List Char) := do
  if query.projections.isEmpty then
    throw .emptyProjection
  query.projections.forM (checkDisplayName query.columns)
  let pattern ← patternLines query
  return query.prefixes.flatMap prefixLine ++ selectLine query ++
    line 0 "WHERE \x7b".toList ++ pattern ++ line 0 closeGroup ++
    keysLine "GROUP BY " (query.groupBy.map groupKeyChars) ++
    keysLine "HAVING " (query.having.map bracketedChars) ++
    keysLine "ORDER BY " (query.orderBy.map orderKeyChars) ++
    countLine "LIMIT " query.limit ++ countLine "OFFSET " query.offset

/-- The query as SPARQL writes it. -/
def render (query : Query) : Except RenderError String :=
  String.ofList <$> queryChars query

end TripleTables.Sparql
