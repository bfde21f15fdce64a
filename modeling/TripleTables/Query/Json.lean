import TripleTables.Graph.Json
import TripleTables.Query.Basic

/-!
# Queries as JSON

A compiled query as data for other programs, and its reading.
-/

namespace TripleTables

open TripleTables.Graph

/-- An optional group. -/
def OptionalGroup.json (group : OptionalGroup) : Json :=
  .object
    [ ("triples", .ofList Triple.json group.triples)
    , ("nested", .ofList (Json.ofList Triple.json) group.nested)
    , ("filters", .ofList Expr.json group.filters) ]

/-- Reads an optional group. -/
def OptionalGroup.ofJson? (value : Json) : Option OptionalGroup := do
  let value := value.named ["triples", "nested", "filters"]
  return { triples := ← Json.list? Triple.ofJson? (← value.field? "triples")
           nested := ← Json.list? (Json.list? Triple.ofJson?) (← value.field? "nested")
           filters := ← Json.list? Expr.ofJson? (← value.field? "filters") }

/-- An element of a pattern. -/
def Element.json : Element → Json
  | .block (.required triples) => .tagged "Required" (.ofList Triple.json triples)
  | .block (.optional group) => .tagged "Optional" group.json
  | .filter condition => .tagged "Filter" condition.json
  | .bind expr v => .tagged "Bind" (.object [("expr", expr.json), ("variable", v.json)])

/-- Reads an element of a pattern. -/
def Element.ofJson? (value : Json) : Option Element := do
  let (tag, content) ← value.tagged?
  match tag with
  | "Required" => return .block (.required (← Json.list? Triple.ofJson? content))
  | "Optional" => return .block (.optional (← OptionalGroup.ofJson? content))
  | "Filter" => return .filter (← Expr.ofJson? content)
  | "Bind" =>
      return .bind (← Expr.ofJson? (← content.field? "expr"))
        (← Variable.ofJson? (← content.field? "variable"))
  | _ => none

/-- A result column. -/
def Projection.json (projection : Projection) : Json :=
  .object
    [ ("variable", projection.var.json)
    , ("display_name", .string projection.displayName)
    , ("expression", .ofOption Expr.json projection.expression)
    , ("sql_type", .ofOption .string projection.sqlType)
    , ("nullable", .boolean projection.nullable) ]

/-- Reads a result column. -/
def Projection.ofJson? (value : Json) : Option Projection := do
  let value :=
    value.named ["variable", "display_name", "expression", "sql_type", "nullable"]
  return { var := ← Variable.ofJson? (← value.field? "variable")
           displayName := ← (← value.field? "display_name").string?
           expression := ← Json.option? Expr.ofJson? (value.fieldOrNull "expression")
           sqlType := ← Json.option? Json.string? (value.fieldOrNull "sql_type")
           nullable := ← (← value.field? "nullable").boolean? }

/-- A key of the order. -/
def OrderKey.json (key : OrderKey) : Json :=
  .object [("expr", key.expr.json), ("ascending", .boolean key.ascending)]

/-- Reads a key of the order. -/
def OrderKey.ofJson? (value : Json) : Option OrderKey := do
  let value := value.named ["expr", "ascending"]
  return { expr := ← Expr.ofJson? (← value.field? "expr")
           ascending := ← (← value.field? "ascending").boolean? }

/-- A mentioned column. -/
def MentionedColumn.json (column : MentionedColumn) : Json :=
  .object
    [ ("name", column.name.json)
    , ("variable", column.var.json)
    , ("sql_type", .string column.sqlType)
    , ("nullable", .boolean column.nullable)
    , ("optional", .boolean column.optional) ]

/-- Reads a mentioned column. -/
def MentionedColumn.ofJson? (value : Json) : Option MentionedColumn := do
  let value := value.named ["name", "variable", "sql_type", "nullable", "optional"]
  return { name := ← Name.ofJson? (← value.field? "name")
           var := ← Variable.ofJson? (← value.field? "variable")
           sqlType := ← (← value.field? "sql_type").string?
           nullable := ← (← value.field? "nullable").boolean?
           optional := ← (← value.field? "optional").boolean? }

/-- A prefix with its namespace. -/
def prefixJson (entry : String × String) : Json :=
  .list [.string entry.1, .string entry.2]

/-- Reads a prefix with its namespace. -/
def prefixOfJson? : Json → Option (String × String)
  | .list [.string text, .string target] => some (text, target)
  | _ => none

/-- A query. -/
def Query.json (query : Query) : Json :=
  .object
    [ ("prefixes", .ofList prefixJson query.prefixes)
    , ("service", .ofOption .string query.service)
    , ("distinct", .boolean query.distinct)
    , ("projections", .ofList Projection.json query.projections)
    , ("elements", .ofList Element.json query.elements)
    , ("group_by", .ofList Expr.json query.groupBy)
    , ("having", .ofList Expr.json query.having)
    , ("order_by", .ofList OrderKey.json query.orderBy)
    , ("limit", .ofOption .natural query.limit)
    , ("offset", .ofOption .natural query.offset)
    , ("columns", .ofList MentionedColumn.json query.columns) ]

/-- Reads a query. -/
def Query.ofJson? (value : Json) : Option Query := do
  let value := value.named
    [ "prefixes", "service", "distinct", "projections", "elements", "group_by", "having"
    , "order_by", "limit", "offset", "columns" ]
  return { prefixes := ← Json.list? prefixOfJson? (← value.field? "prefixes")
           service := ← Json.option? Json.string? (value.fieldOrNull "service")
           distinct := ← (← value.field? "distinct").boolean?
           projections := ← Json.list? Projection.ofJson? (← value.field? "projections")
           elements := ← Json.list? Element.ofJson? (← value.field? "elements")
           groupBy := ← Json.list? Expr.ofJson? (← value.field? "group_by")
           having := ← Json.list? Expr.ofJson? (← value.field? "having")
           orderBy := ← Json.list? OrderKey.ofJson? (← value.field? "order_by")
           limit := ← Json.option? Json.natural? (value.fieldOrNull "limit")
           offset := ← Json.option? Json.natural? (value.fieldOrNull "offset")
           columns := ← Json.list? MentionedColumn.ofJson? (← value.field? "columns") }

end TripleTables
