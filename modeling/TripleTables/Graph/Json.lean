import TripleTables.Graph.Expr
import TripleTables.Json

/-!
# Names, triples and expressions as JSON

The data of a compiled query for other programs, and its reading.  A case of
an alternative is an object with one field, named for the case.
-/

namespace TripleTables

open TripleTables.Graph

/-- A name with all its segments. -/
def Name.json (name : Name) : Json :=
  .object
    [ ("catalog", .ofOption .string name.catalog)
    , ("schema", .ofOption .string name.schema)
    , ("table", .ofOption .string name.table)
    , ("column", .ofOption .string name.column) ]

/-- Reads a segment of a name. -/
def Name.segmentOfJson? : Json → Option (Option String) :=
  Json.option? Json.string?

/-- Reads a name from all its segments. -/
def Name.ofJson? (value : Json) : Option Name :=
  match value.named ["catalog", "schema", "table", "column"] with
  | .object fields => do
      let value := Json.object fields
      return { catalog := ← segmentOfJson? (value.fieldOrNull "catalog")
               schema := ← segmentOfJson? (value.fieldOrNull "schema")
               table := ← segmentOfJson? (value.fieldOrNull "table")
               column := ← segmentOfJson? (value.fieldOrNull "column") }
  | _ => none

namespace Graph

/-- A variable by its name. -/
def Variable.json (v : Variable) : Json :=
  .string v.name

/-- Reads a variable; the name is taken as it stands. -/
def Variable.ofJson? (value : Json) : Option Variable :=
  value.string?.map Variable.mk

/-- A term. -/
def Term.json : Term → Json
  | .variable v => .tagged "Variable" v.json
  | .iri reference => .tagged "Iri" (.string reference)
  | .prefixedName name => .tagged "PrefixedName" (.string name)
  | .literal lexical => .tagged "Literal" (.string lexical)
  | .blankNode label => .tagged "BlankNode" (.string label)

/-- Reads a term. -/
def Term.ofJson? (value : Json) : Option Term := do
  let (tag, content) ← value.tagged?
  let text ← content.string?
  match tag with
  | "Variable" => some (.variable ⟨text⟩)
  | "Iri" => some (.iri text)
  | "PrefixedName" => some (.prefixedName text)
  | "Literal" => some (.literal text)
  | "BlankNode" => some (.blankNode text)
  | _ => none

/-- A triple. -/
def Triple.json (triple : Triple) : Json :=
  .object
    [ ("subject", triple.subject.json)
    , ("predicate", triple.predicate.json)
    , ("object", triple.object.json) ]

/-- Reads a triple. -/
def Triple.ofJson? (value : Json) : Option Triple := do
  let value := value.named ["subject", "predicate", "object"]
  return { subject := ← Term.ofJson? (← value.field? "subject")
           predicate := ← Term.ofJson? (← value.field? "predicate")
           object := ← Term.ofJson? (← value.field? "object") }

/-- A constant. -/
def Literal.json : Literal → Json
  | .string value => .tagged "String" (.string value)
  | .integer value => .tagged "Integer" (.integer value)
  | .decimal digits => .tagged "Decimal" (.string digits)
  | .boolean value => .tagged "Boolean" (.boolean value)
  | .date value => .tagged "Date" (.string value)
  | .time value => .tagged "Time" (.string value)
  | .timestamp value => .tagged "Timestamp" (.string value)

/-- Reads a constant. -/
def Literal.ofJson? (value : Json) : Option Literal := do
  let (tag, content) ← value.tagged?
  match tag with
  | "String" => Literal.string <$> content.string?
  | "Integer" => Literal.integer <$> content.integer?
  | "Decimal" => Literal.decimal <$> content.string?
  | "Boolean" => Literal.boolean <$> content.boolean?
  | "Date" => Literal.date <$> content.string?
  | "Time" => Literal.time <$> content.string?
  | "Timestamp" => Literal.timestamp <$> content.string?
  | _ => none

/-- The name of an operator in a query's data. -/
def BinaryOp.label : BinaryOp → String
  | .and => "And"
  | .or => "Or"
  | .equals => "Equals"
  | .notEquals => "NotEquals"
  | .lessThan => "LessThan"
  | .lessThanOrEqual => "LessThanOrEqual"
  | .greaterThan => "GreaterThan"
  | .greaterThanOrEqual => "GreaterThanOrEqual"
  | .add => "Add"
  | .subtract => "Subtract"
  | .multiply => "Multiply"
  | .divide => "Divide"

/-- All operators. -/
def BinaryOp.all : List BinaryOp :=
  [ .and, .or, .equals, .notEquals, .lessThan, .lessThanOrEqual, .greaterThan
  , .greaterThanOrEqual, .add, .subtract, .multiply, .divide ]

/-- The operator with a name. -/
def BinaryOp.ofLabel? (label : String) : Option BinaryOp :=
  all.find? (fun op => op.label == label)

/-- The name of a function in a query's data. -/
def Builtin.label : Builtin → String
  | .ucase => "Ucase"
  | .lcase => "Lcase"
  | .strlen => "Strlen"
  | .substr => "Substr"
  | .replace => "Replace"
  | .abs => "Abs"
  | .ceil => "Ceil"
  | .floor => "Floor"
  | .round => "Round"
  | .rand => "Rand"
  | .now => "Now"
  | .year => "Year"
  | .month => "Month"
  | .day => "Day"
  | .hours => "Hours"
  | .minutes => "Minutes"
  | .seconds => "Seconds"
  | .coalesce => "Coalesce"

/-- All scalar functions. -/
def Builtin.all : List Builtin :=
  [ .ucase, .lcase, .strlen, .substr, .replace, .abs, .ceil, .floor, .round, .rand, .now, .year
  , .month, .day, .hours, .minutes, .seconds, .coalesce ]

/-- The scalar function with a name. -/
def Builtin.ofLabel? (label : String) : Option Builtin :=
  all.find? (fun function => function.label == label)

/-- The name of an aggregate in a query's data. -/
def Aggregate.label : Aggregate → String
  | .count => "Count"
  | .sum => "Sum"
  | .avg => "Avg"
  | .min => "Min"
  | .max => "Max"

/-- All aggregates. -/
def Aggregate.all : List Aggregate :=
  [.count, .sum, .avg, .min, .max]

/-- The aggregate with a name. -/
def Aggregate.ofLabel? (label : String) : Option Aggregate :=
  all.find? (fun function => function.label == label)

namespace Expr

mutual

/-- An expression. -/
def json : Expr → Json
  | .variable v => .tagged "Variable" v.json
  | .constant value => .tagged "Constant" value.json
  | .binary op left right =>
      .tagged "Binary" (.object
        [("op", .string op.label), ("left", left.json), ("right", right.json)])
  | .not operand => .tagged "Not" operand.json
  | .negate operand => .tagged "Negate" operand.json
  | .regex subject pattern flags =>
      .tagged "Regex" (.object
        [ ("expr", subject.json)
        , ("pattern", .string pattern)
        , ("flags", .ofOption .string flags) ])
  | .inList subject items negated =>
      .tagged "In" (.object
        [("expr", subject.json), ("list", .list (allJson items)), ("negated", .boolean negated)])
  | .bound v => .tagged "Bound" v.json
  | .call function args =>
      .tagged "Function" (.object
        [("function", .string function.label), ("args", .list (allJson args))])
  | .aggregate function distinct none =>
      .tagged "Aggregate" (.object
        [("function", .string function.label), ("distinct", .boolean distinct), ("arg", .null)])
  | .aggregate function distinct (some arg) =>
      .tagged "Aggregate" (.object
        [ ("function", .string function.label)
        , ("distinct", .boolean distinct)
        , ("arg", arg.json) ])

/-- Expressions, in order. -/
def allJson : List Expr → List Json
  | [] => []
  | e :: rest => e.json :: allJson rest

end

/-- What the fields of an object are, each read as an expression and as a list
of expressions. -/
structure Parts where
  exprs : List (String × Option Expr)
  lists : List (String × Option (List Expr))

/-- The expression in a field. -/
def Parts.expr? (parts : Parts) (name : String) : Option Expr :=
  (parts.exprs.lookup name).join

/-- The expressions in a field. -/
def Parts.list? (parts : Parts) (name : String) : Option (List Expr) :=
  (parts.lists.lookup name).join

/-- The expression of a case whose content is an object. -/
def ofFields? (tag : String) (content : Json) (parts : Parts) : Option Expr := do
  match tag with
  | "Binary" =>
      let op ← (← content.field? "op").label?
      return .binary (← BinaryOp.ofLabel? op) (← parts.expr? "left") (← parts.expr? "right")
  | "Regex" =>
      let pattern ← (← content.field? "pattern").string?
      let flags ← Json.option? Json.string? (content.fieldOrNull "flags")
      return .regex (← parts.expr? "expr") pattern flags
  | "In" =>
      let negated ← (← content.field? "negated").boolean?
      return .inList (← parts.expr? "expr") (← parts.list? "list") negated
  | "Function" =>
      let function ← (← content.field? "function").label?
      return .call (← Builtin.ofLabel? function) (← parts.list? "args")
  | "Aggregate" =>
      let function ← (← content.field? "function").label?
      let distinct ← (← content.field? "distinct").boolean?
      let arg ←
        match content.fieldOrNull "arg" with
        | .null => some none
        | _ => some <$> parts.expr? "arg"
      return .aggregate (← Aggregate.ofLabel? function) distinct arg
  | "Constant" => Expr.constant <$> Literal.ofJson? content
  | _ => none

/-- The expression of a case whose content is a string. -/
def ofString? (tag text : String) : Option Expr :=
  match tag with
  | "Variable" => some (.variable ⟨text⟩)
  | "Bound" => some (.bound ⟨text⟩)
  | _ => none

/-- The expression of a case whose content is an expression. -/
def ofOperand? (tag : String) (operand : Option Expr) : Option Expr :=
  match tag with
  | "Not" => Expr.not <$> operand
  | "Negate" => Expr.negate <$> operand
  | _ => none

mutual

/-- Reads an expression. -/
def ofJson? : Json → Option Expr
  | .object [(tag, .string text)] => ofString? tag text
  | .object [(tag, .object fields)] =>
      if tag = "Not" ∨ tag = "Negate" then ofOperand? tag (ofJson? (.object fields))
      else ofFields? tag (.object fields) ⟨exprsOfFields fields, listsOfFields fields⟩
  | _ => none

/-- Reads the fields of an object as expressions. -/
def exprsOfFields : List (String × Json) → List (String × Option Expr)
  | [] => []
  | (name, value) :: rest => (name, ofJson? value) :: exprsOfFields rest

/-- Reads the fields of an object as lists of expressions. -/
def listsOfFields : List (String × Json) → List (String × Option (List Expr))
  | [] => []
  | (name, .list items) :: rest => (name, allOfJson? items) :: listsOfFields rest
  | (name, _) :: rest => (name, none) :: listsOfFields rest

/-- Reads expressions. -/
def allOfJson? : List Json → Option (List Expr)
  | [] => some []
  | item :: rest => do return (← ofJson? item) :: (← allOfJson? rest)

end

end Expr

end Graph

end TripleTables
