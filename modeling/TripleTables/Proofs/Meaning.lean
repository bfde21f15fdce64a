import TripleTables.FunctionTable
import TripleTables.Proofs.Like.Regex
import TripleTables.Sql.Syntax

/-!
# What expressions mean

SQL expressions and the expressions of compiled queries are given one meaning
with three truth values.  A column or a variable holds a value or is absent.  A
`Meaning` fixes what constants, operators and functions do to values that are
present; everything else is said here: how absence spreads, what the
connectives do with it, and what the predicates of SQL ask for.

A SQL function means its target applied to its arguments.  Whoever registers the
function may transform the arguments, which are expressions by then; what the target is
applied to after that is a part of the environment that a SQL expression is read in.
-/

namespace TripleTables

open TripleTables.Graph

/-! ## Truth values -/

namespace Kleene

/-- One operand that is false is enough; what is absent may be either. -/
def and : Option Bool → Option Bool → Option Bool
  | some false, _ => some false
  | _, some false => some false
  | some true, some true => some true
  | _, _ => none

/-- One operand that is true is enough; what is absent may be either. -/
def or : Option Bool → Option Bool → Option Bool
  | some true, _ => some true
  | _, some true => some true
  | some false, some false => some false
  | _, _ => none

/-- The negation of what is absent is absent. -/
def not : Option Bool → Option Bool :=
  Option.map Bool.not

end Kleene

/-! ## Values -/

/-- What constants, operators and functions mean over a type of values.  An
operation may have no value where its operands do not suit it. -/
structure Meaning (V : Type) where
  string : String → V
  integer : Int → V
  decimal : String → V
  boolean : Bool → V
  date : String → V
  time : String → V
  timestamp : String → V
  equal : V → V → Option V
  notEqual : V → V → Option V
  less : V → V → Option V
  lessEqual : V → V → Option V
  greater : V → V → Option V
  greaterEqual : V → V → Option V
  plus : V → V → Option V
  minus : V → V → Option V
  times : V → V → Option V
  divide : V → V → Option V
  negative : V → Option V
  function : Builtin → List V → Option V
  /-- Whether a value counts as true. -/
  truth? : V → Option Bool
  /-- The text of a value that is a text. -/
  text? : V → Option String
  /-- Whether a text matches a regular expression, given the flags. -/
  regex : String → Option String → String → Option Bool
  truth_boolean : ∀ b, truth? (boolean b) = some b
  text_string : ∀ text, text? (string text) = some text
  /-- Texts are equal when they have the same characters. -/
  equal_texts : ∀ {first second : V} {text other : String},
    text? first = some text → text? second = some other →
      equal first second = some (boolean (decide (text = other)))
  /-- A regular expression that can be read, without flags, asks for a match of
  the whole text; a full stop stands for any character. -/
  regex_anchored : ∀ {pattern : String} {read : Regex}, Regex.ofText? pattern = some read →
    ∀ text, ∃ answer, regex pattern none text = some answer ∧
      (answer = true ↔ read.Matches (fun _ => True) text.toList)

/-- An operation on two operands that are both present. -/
def strictly {V : Type} (operation : V → V → Option V) (left right : Option V) : Option V := do
  operation (← left) (← right)

namespace Meaning

variable {V : Type} (M : Meaning V)

/-- The truth value of what may be absent. -/
def truth (operand : Option V) : Option Bool :=
  operand.bind M.truth?

/-- The connective AND on what may be absent. -/
protected def and (left right : Option V) : Option V :=
  (Kleene.and (M.truth left) (M.truth right)).map M.boolean

/-- The connective OR on what may be absent. -/
protected def or (left right : Option V) : Option V :=
  (Kleene.or (M.truth left) (M.truth right)).map M.boolean

/-- The connective NOT on what may be absent. -/
protected def not (operand : Option V) : Option V :=
  (Kleene.not (M.truth operand)).map M.boolean

/-- The operand or its negation. -/
def negatedIf (negated : Bool) (operand : Option V) : Option V :=
  if negated then M.not operand else operand

/-- The subject equals one of the items. -/
def among (subject : Option V) (items : List (Option V)) : Option V :=
  items.foldr (fun item others => M.or (strictly M.equal subject item) others)
    (some (M.boolean false))

/-- A call of a function: the first argument that is present, or a function of
arguments that are all present. -/
def call : Builtin → List (Option V) → Option V
  | .coalesce, args => args.findSome? id
  | function, args => (args.mapM id).bind (M.function function)

/-- The condition LIKE.  A value that is no text is compared with a pattern
without wildcards. -/
def like (subject pattern : V) : Option V := do
  let pattern ← M.text? pattern
  match M.text? subject with
  | some text => some (M.boolean (decide (LikeMatches pattern.toList text.toList)))
  | none => M.equal subject (M.string (String.ofList (← likeText? pattern.toList)))

end Meaning

/-! ## Compiled expressions -/

namespace Graph

variable {V : Type} (M : Meaning V)

/-- The value of a constant. -/
def Literal.value : Literal → V
  | .string text => M.string text
  | .integer n => M.integer n
  | .decimal digits => M.decimal digits
  | .boolean b => M.boolean b
  | .date text => M.date text
  | .time text => M.time text
  | .timestamp text => M.timestamp text

/-- What an operator does with the values of its operands. -/
def BinaryOp.value : BinaryOp → Option V → Option V → Option V
  | .and => M.and
  | .or => M.or
  | .equals => strictly M.equal
  | .notEquals => strictly M.notEqual
  | .lessThan => strictly M.less
  | .lessThanOrEqual => strictly M.lessEqual
  | .greaterThan => strictly M.greater
  | .greaterThanOrEqual => strictly M.greaterEqual
  | .add => strictly M.plus
  | .subtract => strictly M.minus
  | .multiply => strictly M.times
  | .divide => strictly M.divide

mutual

/-- The value of an expression under an assignment of values to variables.  An
aggregate has no value of its own for one assignment. -/
def Expr.value (assignment : Variable → Option V) : Expr → Option V
  | .variable v => assignment v
  | .constant literal => some (literal.value M)
  | .binary op left right => op.value M (left.value assignment) (right.value assignment)
  | .not operand => M.not (operand.value assignment)
  | .negate operand => (operand.value assignment).bind M.negative
  | .regex subject pattern flags => do
      let text ← M.text? (← subject.value assignment)
      return M.boolean (← M.regex pattern flags text)
  | .inList subject items negated =>
      M.negatedIf negated (M.among (subject.value assignment) (Expr.values assignment items))
  | .bound v => some (M.boolean (assignment v).isSome)
  | .call function args => M.call function (Expr.values assignment args)
  | .aggregate _ _ _ => none

/-- The values of some expressions, in order. -/
def Expr.values (assignment : Variable → Option V) : List Expr → List (Option V)
  | [] => []
  | e :: rest => e.value assignment :: Expr.values assignment rest

end

theorem Expr.values_eq_map (assignment : Variable → Option V) (es : List Expr) :
    Expr.values M assignment es = es.map (Expr.value M assignment) := by
  induction es with
  | nil => rfl
  | cons e rest ih => rw [Expr.values, ih, List.map_cons]

end Graph

/-! ## SQL expressions -/

variable {V : Type} (M : Meaning V)

namespace Sql

/-- The value of a constant; NULL is absent. -/
def Literal.value : Literal → Option V
  | .string text => some (M.string text)
  | .integer n => some (M.integer n)
  | .decimal digits => some (M.decimal digits)
  | .boolean b => some (M.boolean b)
  | .date text => some (M.date text)
  | .time text => some (M.time text)
  | .timestamp text => some (M.timestamp text)
  | .null => none

/-- What an operator does with the values of its operands. -/
def BinaryOp.value : BinaryOp → Option V → Option V → Option V
  | .and => M.and
  | .or => M.or
  | .equal => strictly M.equal
  | .notEqual => strictly M.notEqual
  | .less => strictly M.less
  | .lessEqual => strictly M.lessEqual
  | .greater => strictly M.greater
  | .greaterEqual => strictly M.greaterEqual
  | .plus => strictly M.plus
  | .minus => strictly M.minus
  | .times => strictly M.times
  | .divide => strictly M.divide
  | _ => fun _ _ => none

/-- What an operator does with the value of its operand. -/
def UnaryOp.value : UnaryOp → Option V → Option V
  | .not, operand => M.not operand
  | .minus, operand => operand.bind M.negative
  | .plus, operand => operand

/-- What a SQL expression is read in. -/
structure Environment (V : Type) where
  functions : FunctionTable
  /-- The values that a function with a transform is handed, given its arguments and
  their values. -/
  handing : FunctionEntry → List Expr → List (Option V) → List (Option V)
  /-- What a column holds. -/
  column : ObjectName → Option V

/-- The values that the target of a function is applied to: those of the arguments,
unless they are transformed. -/
def Environment.handed (env : Environment V) (entry : FunctionEntry) (args : List Expr)
    (values : List (Option V)) : List (Option V) :=
  match entry.transform with
  | some _ => env.handing entry args values
  | none => values

/-- The value of a call: the target of the function applied to what it is handed. -/
def Environment.call (env : Environment V) (name : String) (args : List Expr)
    (values : List (Option V)) : Option V :=
  match env.functions.get? name with
  | some entry =>
      match entry.target with
      | .scalar function => M.call function (env.handed entry args values)
      | .aggregate _ => none
  | none => none

mutual

/-- The value of an expression in an environment.  What cannot be compiled has no
value here. -/
def Expr.value (env : Environment V) : Expr → Option V
  | .column name => env.column name
  | .literal constant => constant.value M
  | .binary op left right => op.value M (left.value env) (right.value env)
  | .unary op operand => op.value M (operand.value env)
  | .nested inner => inner.value env
  | .like negated subject pattern =>
      M.negatedIf negated (strictly M.like (subject.value env) (pattern.value env))
  | .between negated subject low high =>
      let subject := subject.value env
      M.negatedIf negated
        (M.and (strictly M.greaterEqual subject (low.value env))
          (strictly M.lessEqual subject (high.value env)))
  | .inList negated subject items =>
      M.negatedIf negated (M.among (subject.value env) (Expr.values env items))
  | .isNull negated subject =>
      let subject := subject.value env
      some (M.boolean (if negated then subject.isSome else subject.isNone))
  | .call name args _ _ => env.call M name args (Expr.values env args)
  | .parameter => none
  | .inQuery _ _ _ => none
  | .existsIn _ => none
  | .subquery _ => none
  | .compareAny _ _ _ => none
  | .compareAll _ _ _ => none
  | .case _ _ _ => none

/-- The values of some expressions, in order. -/
def Expr.values (env : Environment V) : List Expr → List (Option V)
  | [] => []
  | e :: rest => e.value env :: Expr.values env rest

end

end Sql

end TripleTables
