import TripleTables.Sql.Lexeme

/-!
# Reading expressions

The grammar of expressions, from the loosest binding to the tightest: OR, AND,
NOT, predicates, bitwise operators, additive operators, multiplicative
operators, signs, and what stands for itself.

The readers of this module take the readers for nested parts as arguments: for
the expression in a bracket, the operand of a repeated NOT or sign, and a
subquery.  Each of these is used only behind a token that has been read.
-/

namespace TripleTables.Sql

/-- The readers for the parts that may be nested. -/
structure Nested where
  /-- A whole expression. -/
  expr : Lexer Expr
  /-- An expression from NOT on. -/
  negation : Lexer Expr
  /-- An expression from a sign on. -/
  signed : Lexer Expr
  /-- A query without brackets. -/
  query : Lexer Query

namespace Expression

open Reader Lexer

/-! ## Operators -/

/-- Reads one of some operators as a token. -/
def operator (first : String × BinaryOp) (rest : List (String × BinaryOp)) : Lexer BinaryOp :=
  let one (entry : String × BinaryOp) : Lexer BinaryOp := do
    Lexer.text entry.1
    return entry.2
  token (firstOf (one first) (rest.map one))

/-- The operators of a comparison; the longer ones come first. -/
def comparisonOperator : Lexer BinaryOp :=
  operator ("<=", .lessEqual)
    [ (">=", .greaterEqual), ("<>", .notEqual), ("!=", .notEqual), ("=", .equal), ("<", .less)
    , (">", .greater), ("@@", .matching) ]

/-- Reads a bar that is not doubled. -/
def singleBar : Lexer BinaryOp := do
  let _ ← char '|'
  (fun s => if s.head? = some '|' then .miss s else .ok () s : Lexer Unit)
  return .bitOr

/-- The operators on bits. -/
def bitwiseOperator : Lexer BinaryOp :=
  token <| firstOf (do let _ ← char '&'; return .bitAnd)
    [singleBar, do let _ ← char '^'; return .bitXor]

/-- The operators of a sum. -/
def additiveOperator : Lexer BinaryOp :=
  operator ("||", .concat) [("+", .plus), ("-", .minus)]

/-- The operators of a product. -/
def multiplicativeOperator : Lexer BinaryOp :=
  operator ("*", .times) [("/", .divide), ("%", .modulo)]

/-- Reads operands with operators between them, which bind to the left. -/
def chain (operand : Lexer Expr) (op : Lexer BinaryOp) : Lexer Expr := do
  let first ← operand
  repeating (fun left => do
    let op ← op
    let right ← operand
    return .binary op left right) first

/-! ## What stands for itself -/

section Primary

variable (nested : Nested)

/-- Reads a query in brackets. -/
def bracketedQuery : Lexer Query := do
  symbol '('
  let query ← nested.query
  symbol ')'
  return query

/-- Reads a list of expressions in brackets. -/
def bracketedList : Lexer (List Expr) := do
  symbol '('
  let items ← separatedList1 (symbol ',') nested.expr
  symbol ')'
  return items

/-- Reads a subquery, or an expression in brackets. -/
def bracketed : Lexer Expr :=
  orAfterFailure
    (do return .subquery (← bracketedQuery nested))
    (do
      symbol '('
      let inner ← nested.expr
      symbol ')'
      return .nested inner)

/-- Reads a placeholder. -/
def parameter : Lexer Expr := do
  symbol '?'
  return .parameter

/-- Reads a keyword and a string that it types. -/
def typedString (word : String) (literal : String → Literal) : Lexer Literal := do
  keyword word
  return literal (← Lexer.string)

/-- Reads a date or a time in braces. -/
def bracedLiteral : Lexer Expr := do
  symbol '\x7b'
  let value ← firstOf (typedString "TS" .timestamp)
    [typedString "D" .date, typedString "T" .time]
  symbol '\x7d'
  return .literal value

/-- Reads a date or a time after its keyword. -/
def typedLiteral : Lexer Expr := do
  return .literal (← firstOf (typedString "DATE" .date)
    [typedString "TIMESTAMP" .timestamp, typedString "TIME" .time])

/-- Reads a keyword that is a constant. -/
def wordLiteral (word : String) (literal : Literal) : Lexer Expr := do
  keyword word
  return .literal literal

/-- Reads one branch of a CASE expression. -/
def branch : Lexer Branch := do
  keyword "WHEN"
  let condition ← nested.expr
  keyword "THEN"
  let result ← nested.expr
  return ⟨condition, result⟩

/-- Reads the operand of a CASE expression, which is absent where the branches
follow at once. -/
def caseOperand : Lexer (Option Expr) := do
  if ← succeeds (keyword "WHEN") then
    return none
  else
    return some (← nested.expr)

/-- Reads a CASE expression. -/
def caseExpression : Lexer Expr := do
  keyword "CASE"
  let operand ← caseOperand nested
  let branches ← many1 (branch nested)
  let otherwise ← optional (do
    keyword "ELSE"
    nested.expr)
  keyword "END"
  return .case operand branches otherwise

/-- Reads an EXISTS condition. -/
def existsCondition : Lexer Expr := do
  keyword "EXISTS"
  return .existsIn (← bracketedQuery nested)

/-- The words that may name a function: those that are not reserved, and two
that are. -/
def isFunctionName (word : List Char) : Bool :=
  !isReserved word || sameWord word "LEFT".toList || sameWord word "RIGHT".toList

/-- Reads a call. -/
def call : Lexer Expr := do
  let name ← token (word isFunctionName)
  symbol '('
  match ← optional (symbol '*') with
  | some _ =>
      symbol ')'
      return .call name [] false true
  | none =>
      let distinct ← optional (keyword "DISTINCT")
      let args ← separatedList (symbol ',') nested.expr
      symbol ')'
      return .call name args distinct.isSome false

/-- Reads an expression that is no operator with operands. -/
def primary : Lexer Expr :=
  firstOf (bracketed nested)
    [ parameter
    , bracedLiteral
    , typedLiteral
    , do return .literal (.string (← Lexer.string))
    , do return .literal (numberLiteral (← number))
    , wordLiteral "TRUE" (.boolean true)
    , wordLiteral "FALSE" (.boolean false)
    , wordLiteral "NULL" .null
    , caseExpression nested
    , existsCondition nested
    , call nested
    , do return .column (← objectName) ]

end Primary

/-! ## Levels -/

section Levels

variable (nested : Nested)

/-- The negative of an operand: a constant takes the sign, unless it is the least
integer, whose negative is none. -/
def negated : Expr → Expr
  | .literal (.integer value) =>
      if value = minInteger then .unary .minus (.literal (.integer value))
      else .literal (.integer (-value))
  | .literal (.decimal digits) => .literal (.decimal ("-" ++ digits))
  | operand => .unary .minus operand

/-- Reads an operand with the signs before it. -/
def signed : Lexer Expr := do
  match ← optional (symbol '-') with
  | some _ => return negated (← nested.signed)
  | none =>
      match ← optional (symbol '+') with
      | some _ => return .unary .plus (← nested.signed)
      | none => primary nested

/-- Reads a product. -/
def multiplicative : Lexer Expr :=
  chain (signed nested) multiplicativeOperator

/-- Reads a sum. -/
def additive : Lexer Expr :=
  chain (multiplicative nested) additiveOperator

/-- Reads an expression of bitwise operators. -/
def bitwise : Lexer Expr :=
  chain (additive nested) bitwiseOperator

/-- Reads a comparison with all or any rows of a query. -/
def quantified (left : Expr) : Lexer Expr := do
  let op ← comparisonOperator
  let all ← firstOf (do keyword "ALL"; return true)
    [do keyword "ANY"; return false, do keyword "SOME"; return false]
  let query ← bracketedQuery nested
  return if all then .compareAll op left query else .compareAny op left query

/-- Reads a comparison. -/
def comparison (left : Expr) : Lexer Expr := do
  let op ← comparisonOperator
  let right ← bitwise nested
  return .binary op left right

/-- Reads a test for absence. -/
def nullTest (left : Expr) : Lexer Expr := do
  keyword "IS"
  let negated ← optional (keyword "NOT")
  keyword "NULL"
  return .isNull negated.isSome left

/-- Reads the list or the query after IN. -/
def membership (negated : Bool) (left : Expr) : Lexer Expr := do
  keyword "IN"
  orAfterFailure
    (do return .inQuery negated left (← bracketedQuery nested))
    (do return .inList negated left (← bracketedList nested))

/-- Reads a predicate that may be negated, once that has been told. -/
def afterNot (left : Expr) (negated : Bool) : Lexer Expr := do
  match ← optional (keyword "LIKE") with
  | some _ => return .like negated left (← bitwise nested)
  | none =>
      match ← optional (keyword "BETWEEN") with
      | some _ =>
          let low ← bitwise nested
          keyword "AND"
          let high ← bitwise nested
          return .between negated left low high
      | none => membership nested negated left

/-- Reads a predicate that may be negated. -/
def negatable (left : Expr) : Lexer Expr := do
  let negated ← optional (keyword "NOT")
  afterNot nested left negated.isSome

/-- Reads what makes a predicate of the expression before it. -/
def predicateSuffix (left : Expr) : Lexer Expr :=
  firstOf (quantified nested left)
    [comparison nested left, nullTest left, negatable nested left]

/-- Reads a predicate. -/
def predicate : Lexer Expr := do
  let first ← bitwise nested
  repeating (predicateSuffix nested) first

/-- Reads a condition that may be negated. -/
def negation : Lexer Expr :=
  orElse
    (do
      keyword "NOT"
      return .unary .not (← nested.negation))
    (predicate nested)

/-- Reads a conjunction. -/
def conjunction : Lexer Expr :=
  chain (negation nested) (do keyword "AND"; return .and)

/-- Reads a disjunction, which is a whole expression. -/
def disjunction : Lexer Expr :=
  chain (conjunction nested) (do keyword "OR"; return .or)

end Levels

end Expression

end TripleTables.Sql
