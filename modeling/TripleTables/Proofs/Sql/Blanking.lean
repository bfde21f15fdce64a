import TripleTables.Proofs.Sql.Rewriting

/-!
# Statements without their texts

`Query.blanked` takes the texts out of a statement: nothing is left between the
quotes of its strings, dates, times and timestamps.  The pattern of a LIKE keeps
its text, since a pattern is no mere text; brackets around it and a plus before
it do not change that.  Two statements that are the same once they are blanked
differ in texts only.
-/

namespace TripleTables.Sql

/-- The constant with nothing between its quotes. -/
def Literal.blanked : Literal → Literal
  | .string _ => .string ""
  | .date _ => .date ""
  | .time _ => .time ""
  | .timestamp _ => .timestamp ""
  | .integer value => .integer value
  | .decimal digits => .decimal digits
  | .boolean value => .boolean value
  | .null => .null

/-- The text of an expression that is just a string. -/
def Expr.text? : Expr → Option String
  | .literal (.string value) => some value
  | .nested inner => inner.text?
  | .unary .plus operand => operand.text?
  | _ => none

/-- Texts taken out, except those of patterns. -/
def blanking : Rewriting where
  literal := Literal.blanked
  keeps pattern := pattern.text?.isSome

@[simp]
theorem blanking_name (name : ObjectName) : blanking.name name = name := rfl

@[simp]
theorem blanking_function (name : String) : blanking.function name = name := rfl

@[simp]
theorem blanking_literal (value : Literal) : blanking.literal value = value.blanked := rfl

@[simp]
theorem blanking_keeps (pattern : Expr) : blanking.keeps pattern = pattern.text?.isSome := rfl

/-- The query without its texts. -/
def Query.blanked (query : Query) : Query :=
  query.rewritten blanking

/-! ## Quiet statements -/

/-- The digits of a number hold no double quote. -/
def Literal.IsQuiet : Literal → Prop
  | .decimal digits => '"' ∉ digits.toList
  | _ => True

/-- A constant among the nodes of a statement is quiet. -/
def Part.IsQuiet : Part → Prop
  | .expr (.literal value) => value.IsQuiet
  | _ => True

/-- All constants of the expression are quiet. -/
def Expr.IsQuiet (e : Expr) : Prop :=
  Part.Every Part.IsQuiet e.parts

/-- All constants of the statement are quiet. -/
def Query.IsQuiet (query : Query) : Prop :=
  Part.Every Part.IsQuiet query.parts

end TripleTables.Sql
