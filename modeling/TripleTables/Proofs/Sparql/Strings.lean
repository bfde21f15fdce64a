import TripleTables.Proofs.Graph.Blanking
import TripleTables.Proofs.Sparql.Brackets
import TripleTables.Proofs.Sparql.Reader

/-!
# Texts that differ in their strings

Expressions that differ only in the texts of constants are written with the same
characters, up to what stands between the quotes of string tokens.  The one
place where the writer looks at characters is the search for brackets around a
whole text, and it skips what is quoted.
-/

namespace TripleTables.Sparql

open TripleTables.Graph

/-! ## String tokens -/

/-- The texts are the same but for the bodies of string tokens; every character
outside them is accepted by `shared`. -/
inductive SameButStrings (shared : Char → Bool) : List Char → List Char → Prop
  | nil : SameButStrings shared [] []
  | char {c : Char} {first second : List Char} (accepted : shared c = true)
      (rest : SameButStrings shared first second) :
      SameButStrings shared (c :: first) (c :: second)
  | string (body other : List Char) {first second : List Char}
      (rest : SameButStrings shared first second) :
      SameButStrings shared (Text.quote body ++ first) (Text.quote other ++ second)

/-- The character is no double quote. -/
def isUnquoted (c : Char) : Bool :=
  c != '"'

namespace SameButStrings

variable {shared : Char → Bool} {first second third fourth : List Char}

theorem refl {text : List Char} (inside : text.all shared = true) :
    SameButStrings shared text text := by
  induction text with
  | nil => exact .nil
  | cons c rest ih =>
      rw [List.all_cons, Bool.and_eq_true] at inside
      exact .char inside.1 (ih inside.2)

theorem symm (same : SameButStrings shared first second) : SameButStrings shared second first := by
  induction same with
  | nil => exact .nil
  | char accepted _ ih => exact .char accepted ih
  | string body other _ ih => exact .string other body ih

theorem append (same : SameButStrings shared first second)
    (behind : SameButStrings shared third fourth) :
    SameButStrings shared (first ++ third) (second ++ fourth) := by
  induction same with
  | nil => exact behind
  | char accepted _ ih => exact .char accepted ih
  | string body other _ ih =>
      rw [List.append_assoc, List.append_assoc]
      exact .string body other ih

theorem mono {wider : Char → Bool} (same : SameButStrings shared first second)
    (included : ∀ c, shared c = true → wider c = true) : SameButStrings wider first second := by
  induction same with
  | nil => exact .nil
  | char accepted _ ih => exact .char (included _ accepted) ih
  | string body other _ ih => exact .string body other ih

theorem quote (body other : List Char) :
    SameButStrings shared (Text.quote body) (Text.quote other) := by
  have token : SameButStrings shared (Text.quote body ++ []) (Text.quote other ++ []) :=
    .string body other .nil
  rwa [List.append_nil, List.append_nil] at token

theorem eq_nil (same : SameButStrings shared [] second) : second = [] := by
  cases same
  rfl

/-- A last character that ends no string is the last on both sides. -/
theorem concat {front : List Char} {c : Char} (noQuote : c ≠ '"')
    (same : SameButStrings shared (front ++ [c]) second) :
    ∃ other, second = other ++ [c] ∧ SameButStrings shared front other := by
  generalize whole : front ++ [c] = text at same
  induction same generalizing front with
  | nil => simp at whole
  | @char d text other accepted rest ih =>
      cases front with
      | nil =>
          simp only [List.nil_append, List.cons.injEq] at whole
          obtain ⟨rfl, rfl⟩ := whole
          exact ⟨[], by rw [rest.eq_nil, List.nil_append], .nil⟩
      | cons e front =>
          simp only [List.cons_append, List.cons.injEq] at whole
          obtain ⟨rfl, whole⟩ := whole
          obtain ⟨before, rfl, same⟩ := ih whole
          exact ⟨e :: before, rfl, .char accepted same⟩
  | @string body other text second rest ih =>
      -- A string token ends with its quote, so the last character stands behind it.
      rcases List.eq_nil_or_concat text with rfl | ⟨behind, d, rfl⟩
      · rw [Text.quote, List.append_nil] at whole
        exact absurd (List.head_eq_of_cons_eq (List.append_inj_right' whole rfl)) noQuote
      · simp only [List.concat_eq_append, ← List.append_assoc] at whole ih
        obtain ⟨rfl, isLast⟩ := List.append_inj' whole rfl
        cases isLast
        obtain ⟨before, rfl, same⟩ := ih rfl
        exact ⟨Text.quote other ++ before, (List.append_assoc _ _ _).symm, .string body other same⟩

/-- Brackets are counted alike, since strings are skipped. -/
theorem isBalanced_eq (same : SameButStrings isUnquoted first second) (depth : Nat) :
    isBalanced .plain depth first = isBalanced .plain depth second := by
  induction same generalizing depth with
  | nil => rfl
  | @char c _ _ accepted _ ih =>
      have noQuote : c ≠ '"' := by simpa [isUnquoted] using accepted
      cases depth with
      | zero => simp only [isBalanced, noQuote, if_false, ih]
      | succ depth => simp only [isBalanced, noQuote, if_false, ih]
  | string body other _ ih => rw [isBalanced_quote, isBalanced_quote, ih]

/-- Brackets around the whole are left out on both sides or on neither. -/
theorem unwrapped (same : SameButStrings isUnquoted first second) :
    SameButStrings isUnquoted (unwrapped first) (unwrapped second) := by
  -- A text in brackets is the same but for strings only to such a text.
  have enclosed : ∀ {text inner}, SameButStrings isUnquoted ('(' :: inner ++ [')']) text →
      ∃ other, text = '(' :: other ++ [')'] ∧ SameButStrings isUnquoted inner other := by
    intro text inner same
    obtain ⟨front, rfl, opened⟩ := same.concat (by decide)
    cases opened with
    | char accepted inside => exact ⟨_, rfl, inside⟩
  by_cases isEnclosed : ∃ inner, first = '(' :: inner ++ [')']
  · obtain ⟨inner, rfl⟩ := isEnclosed
    obtain ⟨other, rfl, inside⟩ := enclosed same
    rw [unwrapped_brackets, unwrapped_brackets, inside.isBalanced_eq]
    split
    · exact inside
    · exact same
  · have bare : ∀ other, second ≠ '(' :: other ++ [')'] := by
      rintro other rfl
      obtain ⟨inner, isFirst, _⟩ := enclosed same.symm
      exact isEnclosed ⟨inner, isFirst⟩
    rw [unwrapped_of_ne (not_exists.mp isEnclosed), unwrapped_of_ne bare]
    exact same

theorem wrapped (same : SameButStrings isUnquoted first second) :
    SameButStrings isUnquoted (wrapped first) (wrapped second) :=
  .char (by decide) (same.unwrapped.append (.refl (by decide)))

/-- Texts that are joined are the same but for strings if they are so one by
one. -/
theorem joined {separator : List Char} (inside : separator.all shared = true)
    {texts others : List (List Char)} (same : List.Forall₂ (SameButStrings shared) texts others) :
    SameButStrings shared (joined separator texts) (joined separator others) := by
  induction same with
  | nil => exact .nil
  | @cons text other rest behind first same ih =>
      cases same with
      | nil => exact first
      | cons _ _ => exact (first.append (.refl inside)).append ih

end SameButStrings

/-! ## Expressions -/

theorem sameButStrings_variable {v : Variable} (clean : v.IsClean) :
    SameButStrings isUnquoted v.name.toList v.name.toList := by
  refine .refl (List.all_eq_true.mpr fun c member => ?_)
  have isNameChar := clean.isNameChar c member
  rw [isUnquoted, bne_iff_ne]
  rintro rfl
  exact absurd isNameChar (by decide)

theorem sameButStrings_tagged (body other : List Char) {datatype : String}
    (inside : datatype.toList.all isUnquoted = true) :
    SameButStrings isUnquoted (Literal.tagged body datatype) (Literal.tagged other datatype) := by
  have mark : SameButStrings isUnquoted "^^<".toList "^^<".toList := .refl (by decide)
  have marked := (SameButStrings.quote body other).append mark
  exact ((marked.append (.refl (by decide))).append (.refl inside)).append (.refl (by decide))

theorem sameButStrings_constant {value other : Literal} (same : value.blanked = other.blanked)
    (quiet : value.IsQuiet) : SameButStrings isUnquoted value.chars other.chars := by
  cases value with
  | string text =>
      cases other with
      | string otherText => exact .quote _ _
      | _ => simp [Literal.blanked] at same
  | date text =>
      cases other with
      | date otherText => exact sameButStrings_tagged _ _ (by decide)
      | _ => simp [Literal.blanked] at same
  | time text =>
      cases other with
      | time otherText => exact sameButStrings_tagged _ _ (by decide)
      | _ => simp [Literal.blanked] at same
  | timestamp text =>
      cases other with
      | timestamp otherText => exact sameButStrings_tagged _ _ (by decide)
      | _ => simp [Literal.blanked] at same
  | integer number =>
      cases other with
      | integer otherNumber =>
          cases same
          refine .refl (List.all_eq_true.mpr fun c member => ?_)
          have isNumeralChar := (isNumeral_toString number).inside c member
          rw [isUnquoted, bne_iff_ne]
          rintro rfl
          exact absurd isNumeralChar (by decide)
      | _ => simp [Literal.blanked] at same
  | decimal digits =>
      cases other with
      | decimal otherDigits =>
          cases same
          refine .refl (List.all_eq_true.mpr fun c member => ?_)
          rw [isUnquoted, bne_iff_ne]
          rintro rfl
          exact quiet member
      | _ => simp [Literal.blanked] at same
  | boolean isTrue =>
      cases other with
      | boolean otherTrue =>
          cases same
          exact .refl (by cases isTrue <;> decide)
      | _ => simp [Literal.blanked] at same

mutual

/-- Expressions that differ only in texts are written the same but for
strings. -/
theorem sameButStrings_exprChars (first : Expr) {second : Expr}
    (clean : first.IsClean)
    (alike : first.blanked = second.blanked) :
    SameButStrings isUnquoted (exprChars first) (exprChars second) := by
  have blank : SameButStrings isUnquoted [' '] [' '] := .refl (by decide)
  have comma : SameButStrings isUnquoted ", ".toList ", ".toList := .refl (by decide)
  have close : SameButStrings isUnquoted [')'] [')'] := .refl (by decide)
  have node := Expr.sameNode_of_blanked_eq alike
  cases first with
  | «variable» v =>
      cases node
      rw [exprChars_variable]
      exact .char (by decide) (sameButStrings_variable clean)
  | constant value =>
      cases node with
      | constant same => exact sameButStrings_constant same clean
  | binary op left right =>
      cases node with
      | binary _ sameLeft sameRight =>
          have symbol : SameButStrings isUnquoted op.symbol.toList op.symbol.toList :=
            .refl (by cases op <;> decide)
          have opened :=
            (sameButStrings_exprChars left clean.1 sameLeft).char (c := '(') (by decide)
          have second := sameButStrings_exprChars right clean.2 sameRight
          rw [exprChars_binary, exprChars_binary]
          exact ((((opened.append blank).append symbol).append blank).append second).append close
  | not operand =>
      cases node with
      | not same => exact .char (by decide) (sameButStrings_exprChars operand clean same).wrapped
  | negate operand =>
      cases node with
      | negate same => exact .char (by decide) (sameButStrings_exprChars operand clean same).wrapped
  | regex subject pattern flags =>
      cases node with
      | regex _ _ same =>
          have name : SameButStrings isUnquoted "REGEX(".toList "REGEX(".toList :=
            .refl (by decide)
          have opened := (name.append (sameButStrings_exprChars subject clean same)).append comma
          have pattern := opened.append (.quote pattern.toList pattern.toList)
          cases flags with
          | none => exact pattern.append close
          | some flags =>
              exact ((pattern.append comma).append (.quote flags.toList flags.toList)).append close
  | inList subject items negated =>
      cases node with
      | inList _ same sameItems =>
          have word : SameButStrings isUnquoted (if negated then " NOT IN (" else " IN (").toList
              (if negated then " NOT IN (" else " IN (").toList :=
            .refl (by cases negated <;> decide)
          have opened := (sameButStrings_exprChars subject clean.1 same).char (c := '(') (by decide)
          have list : SameButStrings isUnquoted (joined ", ".toList (allChars items)) _ :=
            .joined (by decide) (sameButStrings_allChars items clean.2 sameItems)
          rw [exprChars_inList, exprChars_inList]
          exact ((opened.append word).append list).append (.refl (by decide))
  | bound v =>
      cases node
      have name : SameButStrings isUnquoted "BOUND(?".toList "BOUND(?".toList := .refl (by decide)
      rw [exprChars_bound]
      exact (name.append (sameButStrings_variable clean)).append close
  | call function args =>
      cases node with
      | call _ same =>
          have name : SameButStrings isUnquoted function.keyword.toList function.keyword.toList :=
            .refl (by cases function <;> decide)
          have list : SameButStrings isUnquoted (joined ", ".toList (allChars args)) _ :=
            .joined (by decide) (sameButStrings_allChars args clean same)
          rw [exprChars_call, exprChars_call]
          exact (name.append (list.char (c := '(') (by decide))).append close
  | aggregate function distinct arg =>
      cases node with
      | @aggregate _ _ _ other same =>
          have name : SameButStrings isUnquoted function.keyword.toList function.keyword.toList :=
            .refl (by cases function <;> decide)
          have word : SameButStrings isUnquoted (if distinct then "(DISTINCT " else "(").toList
              (if distinct then "(DISTINCT " else "(").toList :=
            .refl (by cases distinct <;> decide)
          cases arg with
          | none =>
              rw [Option.map_eq_none_iff.mp same.symm]
              exact (name.append word).append (.refl (by decide))
          | some arg =>
              obtain ⟨otherArg, rfl, sameArg⟩ := Option.map_eq_some_iff.mp same.symm
              have argument := sameButStrings_exprChars arg clean sameArg.symm
              exact ((name.append word).append argument).append close

theorem sameButStrings_allChars (es : List Expr) {others : List Expr}
    (clean : Expr.AllMadeOf Variable.IsClean Literal.IsQuiet es)
    (same : Expr.allBlanked es = Expr.allBlanked others) :
    List.Forall₂ (SameButStrings isUnquoted) (allChars es) (allChars others) := by
  cases es with
  | nil =>
      cases others with
      | nil => exact .nil
      | cons other rest => simp [Expr.allBlanked] at same
  | cons e rest =>
      cases others with
      | nil => simp [Expr.allBlanked] at same
      | cons other others =>
          rw [Expr.allBlanked, Expr.allBlanked, List.cons.injEq] at same
          exact .cons (sameButStrings_exprChars e clean.1 same.1)
            (sameButStrings_allChars rest clean.2 same.2)

end

end TripleTables.Sparql
