import TripleTables.Query.Builder
import TripleTables.Sql.Fault

/-!
# Errors of compilation

What a statement can fail with: it cannot be read, it asks for something that
has no counterpart in a graph query, it calls a function wrongly, or the
building of its query fails.  Where its reading breaks down there is no error,
but no query either.
-/

namespace TripleTables

open TripleTables.Graph

/-- What has no counterpart in a graph query. -/
inductive Construct where
  | parameter
  | nullLiteral
  | inSubquery
  | existsCondition
  | subquery
  | compareAny
  | compareAll
  | caseExpression
  | columnName (name : Sql.ObjectName)
  | tableName (name : Sql.ObjectName)
  | modulo
  | bitwise (op : Sql.BinaryOp)
  | concat
  | matching
  /-- An aggregate where none is allowed. -/
  | aggregate (function : Aggregate)
  /-- A star as the argument of an aggregate that does not count. -/
  | aggregateStar (function : Aggregate)
  /-- A scalar function with DISTINCT or a star. -/
  | scalarModifier (name : String)
  | nestedAggregate
  /-- A test for absence on an expression that is no variable. -/
  | computedNullTest
  | likePattern
  | join (kind : Sql.JoinKind)
  | derivedTable
  | orderPosition (position : Int)
deriving DecidableEq, Repr

/-- The construct in words. -/
def Construct.text : Construct → String
  | .parameter => "parameter placeholder"
  | .nullLiteral => "NULL literal"
  | .inSubquery => "IN (subquery)"
  | .existsCondition => "EXISTS"
  | .subquery => "subquery"
  | .compareAny => "ANY"
  | .compareAll => "ALL"
  | .caseExpression => "CASE"
  | .columnName name => "column name `" ++ name.text ++ "`"
  | .tableName name => "table name `" ++ name.text ++ "`"
  | .modulo => "modulo operator"
  | .bitwise op => "bitwise operator " ++ op.symbol
  | .concat => "CONCAT"
  | .matching => "MATCHES"
  | .aggregate function => "aggregate " ++ function.keyword
  | .aggregateStar function => function.keyword ++ "(*)"
  | .scalarModifier name => name ++ " with DISTINCT or *"
  | .nestedAggregate => "nested aggregate"
  | .computedNullTest => "IS NULL on a computed expression"
  | .likePattern => "LIKE with a non-literal pattern"
  | .join kind => kind.keyword
  | .derivedTable => "derived table in FROM clause"
  | .orderPosition position => "ORDER BY position " ++ toString position

/-- What a compilation can fail with. -/
inductive CompileError where
  | unreadable (error : Sql.ReadError)
  /-- The reading breaks down at a place, and the compilation with it. -/
  | torn (place : Sql.Position)
  /-- A construct without a counterpart, and the clause it stands in if that
  is said. -/
  | unsupported (construct : Construct) (clause : Option String)
  | unsupportedFunction (name : String)
  | argumentCount (function expected : String) (actual : Nat)
  /-- The operands on the stack do not fit. -/
  | emptyExpression
  | query (error : QueryError)
deriving DecidableEq, Repr

namespace CompileError

/-- The error of a statement that is not read. -/
def ofReading : Sql.ReadFailure → CompileError
  | .unreadable error => .unreadable error
  | .torn place => .torn place

/-- A reading error in words, without the blanks at its end. -/
def readText (error : Sql.ReadError) : String :=
  String.ofList (Text.trimEnd error.chars)

/-- The construct, and where it stands if that is said. -/
def constructText (construct : Construct) : Option String → String
  | some clause => construct.text ++ " in " ++ clause
  | none => construct.text

/-- The error in words; a breakdown has none. -/
def message : CompileError → String
  | .unreadable error => "SQL parse error: " ++ readText error
  | .torn _ => ""
  | .unsupported construct clause =>
      "Unsupported construct: " ++ constructText construct clause
  | .unsupportedFunction name => "Unsupported function: " ++ name
  | .argumentCount function expected actual =>
      "Function " ++ function ++ " expects " ++ expected ++ " argument(s), got " ++
        toString actual
  | .emptyExpression => "Expression compiled to nothing"
  | .query error => error.message

end CompileError

/-- Steps of compilation.  The builder after a step that failed is kept. -/
abbrev Compile := EStateM CompileError Builder

/-- A step of construction as a step of compilation. -/
def Compile.ofBuild {α : Type} (step : Build α) : Compile α :=
  fun builder =>
    match step builder with
    | .ok value next => .ok value next
    | .error error next => .error (.query error) next

end TripleTables
