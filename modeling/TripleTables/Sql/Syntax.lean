/-!
# Statements of SQL

The SELECT statements that the reader accepts, as trees.  Brackets around an
expression are kept as a node of their own.
-/

namespace TripleTables.Sql

/-- A dotted name as it was written, one text a part. -/
abbrev ObjectName := List String

/-- The name with a full stop between its parts. -/
def ObjectName.text (name : ObjectName) : String :=
  ".".intercalate name

/-- A constant. -/
inductive Literal where
  | string (value : String)
  | integer (value : Int)
  /-- A number with a fraction or an exponent, or one too large for an
  integer; it keeps its text. -/
  | decimal (digits : String)
  | boolean (value : Bool)
  | date (value : String)
  | time (value : String)
  | timestamp (value : String)
  | null
deriving DecidableEq, Repr

/-- The operators between two expressions. -/
inductive BinaryOp where
  | and
  | or
  | equal
  | notEqual
  | less
  | lessEqual
  | greater
  | greaterEqual
  | plus
  | minus
  | times
  | divide
  | modulo
  | bitAnd
  | bitOr
  | bitXor
  /-- The operator `||`. -/
  | concat
  /-- The operator `@@`. -/
  | matching
deriving DecidableEq, Repr

/-- The operator as it is written. -/
def BinaryOp.symbol : BinaryOp → String
  | .and => "AND"
  | .or => "OR"
  | .equal => "="
  | .notEqual => "<>"
  | .less => "<"
  | .lessEqual => "<="
  | .greater => ">"
  | .greaterEqual => ">="
  | .plus => "+"
  | .minus => "-"
  | .times => "*"
  | .divide => "/"
  | .modulo => "%"
  | .bitAnd => "&"
  | .bitOr => "|"
  | .bitXor => "^"
  | .concat => "||"
  | .matching => "@@"

/-- The operators before an expression. -/
inductive UnaryOp where
  | not
  | minus
  | plus
deriving DecidableEq, Repr

/-- The operator as it is written. -/
def UnaryOp.symbol : UnaryOp → String
  | .not => "NOT"
  | .minus => "-"
  | .plus => "+"

/-- The kinds of a join that may carry a condition. -/
inductive JoinKind where
  | inner
  | leftOuter
  | rightOuter
  | fullOuter
deriving DecidableEq, Repr

mutual

/-- An expression. -/
inductive Expr where
  | column (name : ObjectName)
  | literal (value : Literal)
  /-- The placeholder `?`. -/
  | parameter
  | binary (op : BinaryOp) (left right : Expr)
  | unary (op : UnaryOp) (operand : Expr)
  /-- An expression in brackets. -/
  | nested (inner : Expr)
  | like (negated : Bool) (subject pattern : Expr)
  | between (negated : Bool) (subject low high : Expr)
  | inList (negated : Bool) (subject : Expr) (items : List Expr)
  | inQuery (negated : Bool) (subject : Expr) (query : Query)
  | isNull (negated : Bool) (subject : Expr)
  /-- A call; `star` tells that a star stands for the arguments. -/
  | call (name : String) (args : List Expr) (distinct star : Bool)
  | existsIn (query : Query)
  | subquery (query : Query)
  | compareAny (op : BinaryOp) (left : Expr) (query : Query)
  | compareAll (op : BinaryOp) (left : Expr) (query : Query)
  | case (operand : Option Expr) (branches : List Branch) (otherwise : Option Expr)

/-- One branch of a CASE expression. -/
structure Branch where
  condition : Expr
  result : Expr

/-- One item of a select list. -/
inductive SelectItem where
  | wildcard
  | qualifiedWildcard (name : ObjectName)
  | expr (expr : Expr) (asName : Option String)

/-- What a query draws rows from. -/
inductive Source where
  | table (name : ObjectName) (asName : Option String)
  | derived (query : Query) (asName : Option String)

/-- How a joined source is combined with what stands before it. -/
inductive JoinRule where
  | cross
  | on (kind : JoinKind) (condition : Option Expr)

/-- A join. -/
structure Join where
  source : Source
  rule : JoinRule

/-- A source with the joins that follow it. -/
structure SourceWithJoins where
  source : Source
  joins : List Join

/-- One key of an order. -/
structure OrderItem where
  expr : Expr
  ascending : Bool

/-- A SELECT query. -/
structure Query where
  distinct : Bool
  items : List SelectItem
  sources : List SourceWithJoins
  condition : Option Expr
  groupBy : List Expr
  having : Option Expr
  orderBy : List OrderItem
  limit : Option Nat
  offset : Option Nat

end

/-- The join as it is written. -/
def JoinKind.keyword : JoinKind → String
  | .inner => "INNER JOIN"
  | .leftOuter => "LEFT OUTER JOIN"
  | .rightOuter => "RIGHT OUTER JOIN"
  | .fullOuter => "FULL OUTER JOIN"

/-- The join as it is written. -/
def JoinRule.keyword : JoinRule → String
  | .cross => "CROSS JOIN"
  | .on kind _ => kind.keyword

/-- The condition of a join, if it has one. -/
def JoinRule.condition? : JoinRule → Option Expr
  | .cross => none
  | .on _ condition => condition

end TripleTables.Sql
