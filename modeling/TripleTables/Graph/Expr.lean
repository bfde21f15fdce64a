import TripleTables.Graph.Literal
import TripleTables.Graph.Term

/-!
# Graph expressions

The expressions that a compiled query may hold in its filters, binds, group
keys, conditions on groups, order keys and aggregate projections.
-/

namespace TripleTables.Graph

/-- The operators between two expressions. -/
inductive BinaryOp where
  | and
  | or
  | equals
  | notEquals
  | lessThan
  | lessThanOrEqual
  | greaterThan
  | greaterThanOrEqual
  | add
  | subtract
  | multiply
  | divide
deriving DecidableEq, Repr

/-- The operator as SPARQL writes it. -/
def BinaryOp.symbol : BinaryOp → String
  | .and => "&&"
  | .or => "||"
  | .equals => "="
  | .notEquals => "!="
  | .lessThan => "<"
  | .lessThanOrEqual => "<="
  | .greaterThan => ">"
  | .greaterThanOrEqual => ">="
  | .add => "+"
  | .subtract => "-"
  | .multiply => "*"
  | .divide => "/"

/-- The scalar functions of SPARQL that SQL functions are mapped to. -/
inductive Builtin where
  | ucase
  | lcase
  | strlen
  | substr
  | replace
  | abs
  | ceil
  | floor
  | round
  | rand
  | now
  | year
  | month
  | day
  | hours
  | minutes
  | seconds
  | coalesce
deriving DecidableEq, Repr

/-- The function's name in SPARQL. -/
def Builtin.keyword : Builtin → String
  | .ucase => "UCASE"
  | .lcase => "LCASE"
  | .strlen => "STRLEN"
  | .substr => "SUBSTR"
  | .replace => "REPLACE"
  | .abs => "ABS"
  | .ceil => "CEIL"
  | .floor => "FLOOR"
  | .round => "ROUND"
  | .rand => "RAND"
  | .now => "NOW"
  | .year => "YEAR"
  | .month => "MONTH"
  | .day => "DAY"
  | .hours => "HOURS"
  | .minutes => "MINUTES"
  | .seconds => "SECONDS"
  | .coalesce => "COALESCE"

/-- The aggregates of SPARQL that SQL aggregates are mapped to. -/
inductive Aggregate where
  | count
  | sum
  | avg
  | min
  | max
deriving DecidableEq, Repr

/-- The aggregate's name in SPARQL. -/
def Aggregate.keyword : Aggregate → String
  | .count => "COUNT"
  | .sum => "SUM"
  | .avg => "AVG"
  | .min => "MIN"
  | .max => "MAX"

/-- An expression of a compiled query. -/
inductive Expr where
  | variable (v : Variable)
  | constant (value : Literal)
  | binary (op : BinaryOp) (left right : Expr)
  | not (operand : Expr)
  | negate (operand : Expr)
  | regex (subject : Expr) (pattern : String) (flags : Option String)
  | inList (subject : Expr) (items : List Expr) (negated : Bool)
  | bound (v : Variable)
  | call (function : Builtin) (args : List Expr)
  /-- An aggregate; it has no argument when all rows are counted. -/
  | aggregate (function : Aggregate) (distinct : Bool) (arg : Option Expr)
deriving Repr

namespace Expr

/-- A string constant. -/
def string (value : String) : Expr :=
  .constant (.string value)

/-- An integer constant. -/
def integer (value : Int) : Expr :=
  .constant (.integer value)

mutual

/-- Some part of the expression is an aggregate. -/
def containsAggregate : Expr → Bool
  | .aggregate _ _ _ => true
  | .variable _ => false
  | .constant _ => false
  | .bound _ => false
  | .binary _ left right => left.containsAggregate || right.containsAggregate
  | .not operand => operand.containsAggregate
  | .negate operand => operand.containsAggregate
  | .regex subject _ _ => subject.containsAggregate
  | .inList subject items _ => subject.containsAggregate || anyContainsAggregate items
  | .call _ args => anyContainsAggregate args

/-- Some part of one of the expressions is an aggregate. -/
def anyContainsAggregate : List Expr → Bool
  | [] => false
  | e :: rest => e.containsAggregate || anyContainsAggregate rest

end

mutual

/-- The variables of the expression from left to right, with repetitions. -/
def vars : Expr → List Variable
  | .variable v => [v]
  | .bound v => [v]
  | .constant _ => []
  | .binary _ left right => left.vars ++ right.vars
  | .not operand => operand.vars
  | .negate operand => operand.vars
  | .regex subject _ _ => subject.vars
  | .inList subject items _ => subject.vars ++ allVariables items
  | .call _ args => allVariables args
  | .aggregate _ _ none => []
  | .aggregate _ _ (some arg) => arg.vars

/-- The variables of the expressions from left to right, with repetitions. -/
def allVariables : List Expr → List Variable
  | [] => []
  | e :: rest => e.vars ++ allVariables rest

end

/-- Some part of a list of expressions is an aggregate exactly when some part
of a member is. -/
theorem anyContainsAggregate_eq_any (es : List Expr) :
    anyContainsAggregate es = es.any containsAggregate := by
  induction es with
  | nil => rfl
  | cons e rest ih => simp [anyContainsAggregate, ih]

/-- The variables of a list of expressions are those of its members in
order. -/
theorem allVariables_eq_flatMap (es : List Expr) :
    allVariables es = es.flatMap vars := by
  induction es with
  | nil => rfl
  | cons e rest ih => simp [allVariables, ih]

end Expr

end TripleTables.Graph
