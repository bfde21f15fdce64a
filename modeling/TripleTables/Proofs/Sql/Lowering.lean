import TripleTables.Proofs.Sql.Restyling
import TripleTables.Proofs.Sql.Rewriting

/-!
# Statements in small letters

`Query.lowered` writes the names of a statement in small letters: the names of
tables, columns and functions, the aliases, and the exponent marks of numbers,
which keep their texts.  What stands between the quotes of a string, a date, a
time or a timestamp stays as it is.  Two statements that are the same once they
are lowered differ in the case of such letters only.
-/

namespace TripleTables.Sql

open Lexer

/-- The name in small letters. -/
def ObjectName.lowered (name : ObjectName) : ObjectName :=
  name.map String.toLower

/-- The constant with a small exponent mark. -/
def Literal.lowered : Literal → Literal
  | .decimal digits => .decimal digits.toLower
  | .string value => .string value
  | .integer value => .integer value
  | .boolean value => .boolean value
  | .date value => .date value
  | .time value => .time value
  | .timestamp value => .timestamp value
  | .null => .null

/-- Names in small letters. -/
def lowering : Rewriting where
  name := ObjectName.lowered
  asName := Option.map String.toLower
  function := String.toLower
  literal := Literal.lowered

section Leaves

@[simp]
theorem lowering_name (name : ObjectName) : lowering.name name = name.lowered :=
  rfl

@[simp]
theorem lowering_asName (asName : Option String) :
    lowering.asName asName = asName.map String.toLower :=
  rfl

@[simp]
theorem lowering_function (name : String) : lowering.function name = name.toLower :=
  rfl

@[simp]
theorem lowering_literal (value : Literal) : lowering.literal value = value.lowered :=
  rfl

@[simp]
theorem lowering_keeps (pattern : Expr) : lowering.keeps pattern = false :=
  rfl

end Leaves

/-- The query with its names in small letters. -/
def Query.lowered (query : Query) : Query :=
  query.rewritten lowering

/-! ## Constants -/

theorem toLower_ofList_eq_iff {text other : List Char} :
    (String.ofList text).toLower = (String.ofList other).toLower ↔ SameLetters text other := by
  simp [← String.toList_inj, String.toLower, SameLetters]

/-- A sign has no case. -/
theorem toLower_minus (digits : String) : ("-" ++ digits).toLower = "-" ++ digits.toLower := by
  simp [← String.toList_inj, String.toLower]

theorem Expr.rewritten_negated (e : Expr) :
    (Expression.negated e).rewritten lowering = Expression.negated (e.rewritten lowering) := by
  cases e with
  | literal value =>
      cases value with
      | decimal digits =>
          simp only [Expression.negated, Expr.rewritten, lowering_literal, Literal.lowered,
            toLower_minus]
      | integer value =>
          by_cases least : value = minInteger <;>
            simp [Expression.negated, Expr.rewritten, Literal.lowered, least]
      | _ => simp [Expression.negated, Expr.rewritten, Literal.lowered]
  | _ => simp [Expression.negated, Expr.rewritten]

/-- Texts of digits are equal if they are the same but for the case of letters. -/
theorem eq_of_sameLetters_of_isDigit {digits other : List Char} (same : SameLetters digits other)
    (inside : digits.all Char.isDigit = true) : digits = other := by
  induction digits generalizing other with
  | nil => simpa [SameLetters, eq_comm] using same
  | cons c digits ih =>
      cases other with
      | nil => simp [SameLetters] at same
      | cons d other =>
          obtain ⟨heads, tails⟩ : c.toLower = d.toLower ∧ SameLetters digits other := by
            simpa [SameLetters] using same
          obtain ⟨isDigit, more⟩ : c.isDigit = true ∧ digits.all Char.isDigit = true := by
            simpa using inside
          rw [eq_of_toLower_eq heads (isAlpha_eq_false_of_isDigit isDigit), ih tails more]

theorem lowered_numberLiteral {digits other : List Char} (same : SameLetters digits other) :
    (numberLiteral digits).lowered = (numberLiteral other).lowered := by
  by_cases inside : digits.all Char.isDigit = true
  · rw [eq_of_sameLetters_of_isDigit same inside]
  · have otherInside : ¬ other.all Char.isDigit = true := by
      intro given
      exact inside (eq_of_sameLetters_of_isDigit same.symm given ▸ given)
    simp only [numberLiteral, inside, otherInside, Bool.false_and, Bool.false_eq_true, if_false,
      Literal.lowered, toLower_ofList_eq_iff.mpr same]

end TripleTables.Sql
