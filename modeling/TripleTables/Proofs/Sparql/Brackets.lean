import TripleTables.Sparql.Expr

/-!
# Brackets around a whole text

Brackets are left out of a text exactly when they enclose the whole of it and
what they enclose is balanced.  Strings are skipped when brackets are counted,
so what stands in them does not matter.
-/

namespace TripleTables.Sparql

/-- Brackets that enclose a whole text are left out, if what is between them is
balanced. -/
theorem unwrapped_brackets (inner : List Char) :
    unwrapped ('(' :: inner ++ [')']) =
      if isBalanced .plain 0 inner then inner else '(' :: inner ++ [')'] := by
  rw [List.cons_append, unwrapped]
  simp

theorem unwrapped_of_ne {text : List Char} (bare : ∀ inner, text ≠ '(' :: inner ++ [')']) :
    unwrapped text = text := by
  unfold unwrapped
  split
  · rename_i rest
    split
    · rename_i encloses
      obtain ⟨inner, rfl⟩ := List.getLast?_eq_some_iff.mp encloses.1
      exact absurd rfl (bare inner)
    · rfl
  · rfl

/-- A text in brackets of its own is the text, or it has a pair more. -/
theorem wrapped_cases (text : List Char) :
    wrapped text = text ∨ wrapped text = '(' :: text ++ [')'] := by
  by_cases enclosed : ∃ inner, text = '(' :: inner ++ [')']
  · obtain ⟨inner, rfl⟩ := enclosed
    rw [wrapped, unwrapped_brackets]
    split
    · exact .inl rfl
    · exact .inr rfl
  · rw [wrapped, unwrapped_of_ne (not_exists.mp enclosed)]
    exact .inr rfl

/-- A string is skipped. -/
theorem isBalanced_escape (body rest : List Char) (depth : Nat) :
    isBalanced .quoted depth (Text.escape body ++ '"' :: rest) = isBalanced .plain depth rest := by
  induction body with
  | nil => rfl
  | cons c more ih =>
      rw [Text.escape_cons, List.append_assoc]
      unfold Text.escapeChar
      split
      · simpa [isBalanced] using ih
      · simpa [isBalanced] using ih
      · simpa [isBalanced] using ih
      · simpa [isBalanced] using ih
      · simpa [isBalanced] using ih
      · rename_i noBackslash noQuote _ _ _
        rw [List.singleton_append, isBalanced, if_neg noBackslash, if_neg noQuote, ih]

theorem isBalanced_quote (body rest : List Char) (depth : Nat) :
    isBalanced .plain depth (Text.quote body ++ rest) = isBalanced .plain depth rest := by
  have shape : Text.quote body ++ rest = '"' :: (Text.escape body ++ '"' :: rest) := by
    simp [Text.quote]
  rw [shape]
  exact isBalanced_escape body rest depth

end TripleTables.Sparql
