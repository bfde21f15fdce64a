import TripleTables.Proofs.Query.Blanking
import TripleTables.Proofs.Run
import TripleTables.Proofs.Sparql.Strings
import TripleTables.Sparql.Query

/-!
# Queries that differ in texts

Queries that differ only in texts are both written, or neither is.  What is
written is the same but for the bodies of strings: there are fragments that both
share, and between them each has string tokens of its own, whose bodies are
complete (`SameButStrings.exists_fragments`).
-/

namespace TripleTables.Sparql

open TripleTables.Graph

/-! ## Fragments and strings -/

/-- Every character. -/
def isAny (_ : Char) : Bool :=
  true

/-- The texts are the same but for the bodies of strings. -/
abbrev SameStructure : List Char → List Char → Prop :=
  SameButStrings isAny

namespace SameStructure

theorem self (text : List Char) : SameStructure text text :=
  SameButStrings.refl (List.all_eq_true.mpr fun _ _ => rfl)

theorem bracketed {first second : Expr} (same : first.SameButTexts second) :
    SameStructure (bracketedChars first) (bracketedChars second) :=
  (sameButStrings_exprChars first same.clean same.blanked_eq).wrapped.mono fun _ _ => rfl

theorem line (depth : Nat) {first second : List Char} (same : SameStructure first second) :
    SameStructure (line depth first) (line depth second) :=
  ((self (indent depth)).append same).append (self ['\n'])

theorem flatMap {α : Type} {rel : α → α → Prop} {text : α → List Char}
    (each : ∀ value other, rel value other → SameStructure (text value) (text other))
    {values others : List α} (related : List.Forall₂ rel values others) :
    SameStructure (values.flatMap text) (others.flatMap text) := by
  induction related with
  | nil => exact .nil
  | cons first _ ih => exact (each _ _ first).append ih

theorem filterLine (depth : Nat) {first second : Expr} (same : first.SameButTexts second) :
    SameStructure (filterLine depth first) (filterLine depth second) :=
  line depth ((self _).append (bracketed same))

end SameStructure

end TripleTables.Sparql
