import TripleTables.Compile.Error
import TripleTables.FunctionTable
import TripleTables.Like

/-!
# Compiling expressions

A SQL expression is turned into a program for a stack machine, which the
machine then runs over the builder.  The program lists the operands of every
node from left to right and then the instruction that combines them, so
columns are registered in the order in which they are written.  A node that
has no counterpart becomes an instruction that refuses; it stands where the
machine would enter the node, before the node's operands.
-/

namespace TripleTables

open TripleTables.Graph

namespace Compile

/-- How the expressions of a clause are compiled. -/
structure Mode where
  functions : FunctionTable
  /-- The clause, for messages. -/
  clause : String
  /-- New columns are registered as optional. -/
  optionalColumns : Bool := false
  allowAggregates : Bool := false
  /-- A name of one part may mean a result column. -/
  resolveAliases : Bool := false

/-- The refusal of a construct in the clause. -/
def Mode.refusal (mode : Mode) (construct : Construct) : CompileError :=
  .unsupported construct (some mode.clause)

/-! ## Programs -/

/-- One instruction of the stack machine. -/
inductive Instruction where
  | push (e : Expr)
  | column (name : Sql.ObjectName)
  | refuse (error : CompileError)
  | binary (op : BinaryOp)
  | not
  | negate
  | between (negated : Bool)
  | inList (negated : Bool) (count : Nat)
  | like (negated : Bool)
  | isNull (negated : Bool)
  | call (entry : FunctionEntry) (count : Nat) (distinct : Bool)

/-- A program of the stack machine. -/
abbrev Program := List Instruction

/-- The constant of a SQL constant; absence has none. -/
def literal? : Sql.Literal → Option Literal
  | .string value => some (.string value)
  | .integer value => some (.integer value)
  | .decimal digits => some (.decimal digits)
  | .boolean value => some (.boolean value)
  | .date value => some (.date value)
  | .time value => some (.time value)
  | .timestamp value => some (.timestamp value)
  | .null => none

/-- The operator of a SQL operator, or what is refused. -/
def binaryOp : Sql.BinaryOp → Except Construct BinaryOp
  | .and => .ok .and
  | .or => .ok .or
  | .equal => .ok .equals
  | .notEqual => .ok .notEquals
  | .less => .ok .lessThan
  | .lessEqual => .ok .lessThanOrEqual
  | .greater => .ok .greaterThan
  | .greaterEqual => .ok .greaterThanOrEqual
  | .plus => .ok .add
  | .minus => .ok .subtract
  | .times => .ok .multiply
  | .divide => .ok .divide
  | .modulo => .error .modulo
  | .bitAnd => .error (.bitwise .bitAnd)
  | .bitOr => .error (.bitwise .bitOr)
  | .bitXor => .error (.bitwise .bitXor)
  | .concat => .error .concat
  | .matching => .error .matching

/-- Whether a call of a function may stand here: aggregates need permission
and take a star only to count; scalar functions take neither DISTINCT nor a
star. -/
def checkTarget (mode : Mode) (name : String) (distinct star : Bool) :
    FunctionTarget → Except CompileError Unit
  | .aggregate function =>
      if !mode.allowAggregates then .error (mode.refusal (.aggregate function))
      else if star && function != .count then .error (mode.refusal (.aggregateStar function))
      else .ok ()
  | .scalar _ =>
      if distinct || star then .error (mode.refusal (.scalarModifier name)) else .ok ()

/-- The function that a call means, once all that can be said without its
arguments has been checked. -/
def resolveCall (mode : Mode) (name : String) (count : Nat) (distinct star : Bool) :
    Except CompileError FunctionEntry := do
  if FunctionTable.key name = "CONCAT" then
    throw (mode.refusal .concat)
  match mode.functions.get? name with
  | none => throw (.unsupportedFunction (FunctionTable.key name))
  | some entry =>
      checkTarget mode name distinct star entry.target
      if !star && !entry.accepts count then
        throw (.argumentCount entry.name entry.arity count)
      return entry

/-- The instruction after the operand of a unary operator, if it needs one. -/
def unaryInstruction : Sql.UnaryOp → Program
  | .not => [.not]
  | .minus => [.negate]
  | .plus => []

mutual

/-- The program of an expression. -/
def program (mode : Mode) : Sql.Expr → Program
  | .column name => [.column name]
  | .literal value =>
      match literal? value with
      | some constant => [.push (.constant constant)]
      | none => [.refuse (mode.refusal .nullLiteral)]
  | .nested inner => program mode inner
  | .binary op left right =>
      match binaryOp op with
      | .ok op => program mode left ++ program mode right ++ [.binary op]
      | .error construct => [.refuse (mode.refusal construct)]
  | .unary op operand => program mode operand ++ unaryInstruction op
  | .like negated subject pattern =>
      program mode subject ++ program mode pattern ++ [.like negated]
  | .between negated subject low high =>
      program mode subject ++ program mode low ++ program mode high ++ [.between negated]
  | .inList negated subject items =>
      program mode subject ++ programs mode items ++ [.inList negated items.length]
  | .isNull negated subject => program mode subject ++ [.isNull negated]
  | .call name args distinct star =>
      match resolveCall mode name args.length distinct star with
      | .ok entry => programs mode args ++ [.call entry args.length distinct]
      | .error error => [.refuse error]
  | .parameter => [.refuse (mode.refusal .parameter)]
  | .inQuery _ _ _ => [.refuse (mode.refusal .inSubquery)]
  | .existsIn _ => [.refuse (mode.refusal .existsCondition)]
  | .subquery _ => [.refuse (mode.refusal .subquery)]
  | .compareAny _ _ _ => [.refuse (mode.refusal .compareAny)]
  | .compareAll _ _ _ => [.refuse (mode.refusal .compareAll)]
  | .case _ _ _ => [.refuse (mode.refusal .caseExpression)]

/-- The programs of some expressions, one after the other. -/
def programs (mode : Mode) : List Sql.Expr → Program
  | [] => []
  | e :: rest => program mode e ++ programs mode rest

end

/-! ## The machine -/

/-- The operands of the machine, the latest first. -/
abbrev Stack := List Expr

/-- The latest `count` operands, the earliest of them first, and those below
them. -/
def popMany (count : Nat) (stack : Stack) : Except CompileError (List Expr × Stack) :=
  if stack.length < count then .error .emptyExpression
  else .ok ((stack.take count).reverse, stack.drop count)

/-- The expression or its negation. -/
def negatedIf (negated : Bool) (e : Expr) : Expr :=
  if negated then .not e else e

/-- The condition that a subject lies between two bounds. -/
def rangeFilter (subject low high : Expr) : Expr :=
  .binary .and (.binary .greaterThanOrEqual subject low) (.binary .lessThanOrEqual subject high)

/-- The condition that an expression is absent, or present if negated.  Only a
variable can be absent. -/
def nullFilter (mode : Mode) (negated : Bool) : Expr → Except CompileError Expr
  | .variable v => .ok (negatedIf (!negated) (.bound v))
  | _ => .error (mode.refusal .computedNullTest)

/-- The call of a function.  An aggregate takes its first argument and no
aggregate inside it. -/
def applyFunction (mode : Mode) (entry : FunctionEntry) (distinct : Bool) (args : List Expr) :
    Except CompileError Expr :=
  let args := entry.handOn args
  match entry.target with
  | .scalar function => .ok (.call function args)
  | .aggregate function =>
      let arg := args.head?
      if arg.any Expr.containsAggregate then .error (mode.refusal .nestedAggregate)
      else .ok (.aggregate function distinct arg)

/-- The stack after an instruction that does not touch the builder. -/
def combine (mode : Mode) : Instruction → Stack → Except CompileError Stack
  | .push e, stack => .ok (e :: stack)
  | .refuse error, _ => .error error
  | .binary op, right :: left :: stack => .ok (.binary op left right :: stack)
  | .not, operand :: stack => .ok (.not operand :: stack)
  | .negate, operand :: stack => .ok (.negate operand :: stack)
  | .between negated, high :: low :: subject :: stack =>
      .ok (negatedIf negated (rangeFilter subject low high) :: stack)
  | .inList negated count, stack => do
      let (items, below) ← popMany count stack
      match below with
      | subject :: stack => return .inList subject items negated :: stack
      | [] => throw .emptyExpression
  | .like negated, pattern :: subject :: stack =>
      match likeFilter? subject pattern with
      | some condition => .ok (negatedIf negated condition :: stack)
      | none => .error (.unsupported .likePattern none)
  | .isNull negated, subject :: stack => do
      return (← nullFilter mode negated subject) :: stack
  | .call entry count distinct, stack => do
      let (args, below) ← popMany count stack
      return (← applyFunction mode entry distinct args) :: below
  | _, _ => .error .emptyExpression

/-- The variable that a column name means: a column of a bound table or, where
that is allowed, a result column. -/
def columnVariable (mode : Mode) (parts : Sql.ObjectName) : Compile Variable :=
  match Name.ofColumnParts? parts with
  | none => throw (mode.refusal (.columnName parts))
  | some name => fun builder =>
      match Builder.addColumn name mode.optionalColumns builder with
      | .ok v next => .ok v next
      | .error (.unknownColumn unknown) next =>
          let found :=
            if mode.resolveAliases && parts.length == 1 then
              next.projectionVariable? name.shortName
            else none
          match found with
          | some v => .ok v next
          | none => .error (.query (.unknownColumn unknown)) next
      | .error error next => .error (.query error) next

/-- The value of a computation that does not touch the builder. -/
def liftExcept {α : Type} : Except CompileError α → Compile α
  | .ok value => pure value
  | .error error => throw error

/-- The stack after an instruction. -/
def step (mode : Mode) (instruction : Instruction) (stack : Stack) : Compile Stack :=
  match instruction with
  | .column name => do return .variable (← columnVariable mode name) :: stack
  | other => liftExcept (combine mode other stack)

/-- Runs a program. -/
def run (mode : Mode) : Program → Stack → Compile Stack
  | [], stack => pure stack
  | instruction :: rest, stack => do
      let stack ← step mode instruction stack
      run mode rest stack

/-- Compiles an expression: what the machine leaves is the one expression. -/
def expression (mode : Mode) (e : Sql.Expr) : Compile Expr := do
  match ← run mode (program mode e) [] with
  | [result] => return result
  | _ => throw .emptyExpression

end Compile

end TripleTables
