import TripleTables.Graph.Expr
import TripleTables.Proofs.Graph.Spelling

/-!
# Variables and constants of expressions

An expression is put together from variables and constants.  `Expr.MadeOf` says
that all of them are of given kinds; the kind of variables that matters is that
of texts which have been cleaned.
-/

namespace TripleTables.Graph

/-- The variable stands for some text. -/
def Variable.IsClean (v : Variable) : Prop :=
  ∃ text, v = Variable.ofText text

/-- Such a variable holds only characters that a variable may hold. -/
theorem Variable.IsClean.isNameChar {v : Variable} (clean : v.IsClean) :
    ∀ c ∈ v.name.toList, isNameChar c = true := by
  obtain ⟨text, rfl⟩ := clean
  obtain ⟨first, rest, cleaned, _, allowed⟩ := exists_clean_eq_cons text.toList
  rw [ofText, String.toList_ofList, cleaned]
  exact allowed

namespace Expr

section

variable (onVariable : Variable → Prop) (onConstant : Literal → Prop)

mutual

/-- All variables and all constants of the expression are of the given kinds. -/
def MadeOf : Expr → Prop
  | .variable v => onVariable v
  | .constant value => onConstant value
  | .binary _ left right => left.MadeOf ∧ right.MadeOf
  | .not operand => operand.MadeOf
  | .negate operand => operand.MadeOf
  | .regex subject _ _ => subject.MadeOf
  | .inList subject items _ => subject.MadeOf ∧ AllMadeOf items
  | .bound v => onVariable v
  | .call _ args => AllMadeOf args
  | .aggregate _ _ none => True
  | .aggregate _ _ (some arg) => arg.MadeOf

/-- All variables and all constants of the expressions are of the given kinds. -/
def AllMadeOf : List Expr → Prop
  | [] => True
  | e :: rest => e.MadeOf ∧ AllMadeOf rest

end

end

end Expr

end TripleTables.Graph
