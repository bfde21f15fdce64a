import TripleTables.Compile.Expression
import TripleTables.Proofs.Sparql.Numeral
import TripleTables.Sql.Statement

/-!
# Signs before numbers

A number takes the minus signs before it into the constant.  An integer is negated,
so it stays between the bounds of its type and is written with one sign at most.
Any other number keeps its text and takes the signs as text: two of them do not
cancel out, and what is written then is no number of SPARQL.
-/

namespace TripleTables

open TripleTables.Graph TripleTables.Sparql

namespace Sql

open Reader Lexer Expression

/-! ## The first character -/

section First

variable {s more : List Char} {c : Char} (starts : s.dropWhile isSpace = c :: more)

include starts

theorem isSpace_eq_false_of_starts : isSpace c = false := by
  have first := List.head?_dropWhile_not isSpace s
  rw [starts] at first
  simpa using first

theorem symbol_of_starts : symbol c s = .ok () (more.dropWhile isSpace) := by
  have read : Lexer.token (char c) s = .ok c (more.dropWhile isSpace) := by
    rw [token_apply, starts]
    simp [char, satisfy]
  exact bind_of_ok read

theorem token_misses_of_starts {α : Type} {p : Lexer α} (missed : Misses p (c :: more)) :
    Misses (Lexer.token p) s := by
  obtain ⟨error, missed⟩ := missed
  exact ⟨error, by rw [token_apply, starts, missed]⟩

theorem symbol_misses_of_starts {d : Char} (other : c ≠ d) : Misses (symbol d) s :=
  (token_misses_of_starts starts ⟨c :: more, by simp [char, satisfy, other]⟩).bind _

theorem keyword_misses_of_starts (noLetter : c.isAlpha = false) (word : Keyword) :
    Misses (keyword word.text) s := by
  have noSpace := isSpace_eq_false_of_starts starts
  have here := @keyword_misses_of_not_isAlpha word more c noSpace noLetter
  rwa [Misses, keyword_apply word.isKeyword_text, List.dropWhile_cons_of_neg (by simp [noSpace]),
    ← starts, ← keyword_apply word.isKeyword_text] at here

/-- What starts with a digit or a point is read as a number. -/
theorem primary_of_starts (nested : Nested) (isFirst : c.isDigit = true ∨ c = '.')
    {text rest : List Char} (read : number s = .ok text rest) :
    primary nested s = .ok (.literal (numberLiteral text)) rest := by
  have other : ∀ d : Char, d.isDigit = false → d ≠ '.' → c ≠ d := by
    rintro d noDigit noPoint rfl
    rcases isFirst with isDigit | isPoint
    · rw [noDigit] at isDigit
      cases isDigit
    · exact noPoint isPoint
  have noLetter : c.isAlpha = false :=
    isAlpha_eq_false_of_not_isWordStart (isWordStart_eq_false_of_isDigit (isFirst.imp_right .inl))
  have noBracket := symbol_misses_of_starts starts (other '(' (by decide) (by decide))
  have noQuery : Misses (bracketed nested) s :=
    misses_orAfterFailure ((noBracket.bind _).bind _) (noBracket.bind _)
  have noParameter : Misses parameter s :=
    (symbol_misses_of_starts starts (other '?' (by decide) (by decide))).bind _
  have noBrace : Misses bracedLiteral s :=
    (symbol_misses_of_starts starts (other '\x7b' (by decide) (by decide))).bind _
  have noKeyword := keyword_misses_of_starts starts noLetter
  have noTyped : Misses typedLiteral s := by
    apply Misses.bind
    apply misses_firstOf ((noKeyword .date).bind _)
    simp only [List.mem_cons, List.not_mem_nil, or_false, forall_eq_or_imp, forall_eq]
    exact ⟨(noKeyword .timestamp).bind _, (noKeyword .time).bind _⟩
  have noString : Misses Lexer.string s :=
    token_misses_of_starts starts (quoted_misses (other '\'' (by decide) (by decide)) more)
  rw [primary_eq]
  refine (orElse_of_misses noQuery _).trans ?_
  refine (orElse_of_misses noParameter _).trans ?_
  refine (orElse_of_misses noBrace _).trans ?_
  refine (orElse_of_misses noTyped _).trans ?_
  refine (orElse_of_misses (noString.bind _) _).trans ?_
  exact orElse_of_ok
    (bind_of_ok (f := fun digits => pure (Expr.literal (numberLiteral digits))) read) _

end First

/-- A number starts with a digit or a point. -/
theorem exists_starts_of_number {s text rest : List Char} (read : number s = .ok text rest) :
    ∃ c more, s.dropWhile isSpace = c :: more ∧ (c.isDigit = true ∨ c = '.') := by
  replace read := (token_apply _ s).symm.trans read
  cases starts : s.dropWhile isSpace with
  | nil =>
      rw [starts] at read
      cases read
  | cons c more =>
      refine ⟨c, more, rfl, ?_⟩
      by_contra neither
      have none : takeMantissa (c :: more) = none := by
        have noDigit : c.isDigit = false := by simpa using fun isDigit => neither (.inl isDigit)
        have noPoint : c ≠ '.' := fun isPoint => neither (.inr isPoint)
        simp [takeMantissa, takeDigits, noDigit, noPoint]
      simp [starts, none] at read

/-! ## Reading signs -/

/-- A text with minus signs before it, each behind some blanks. -/
def withSigns (gaps : List (List Char)) (s : List Char) : List Char :=
  gaps.foldr (fun gap rest => gap ++ '-' :: rest) s

theorem token_congr {α : Type} (p : Lexer α) {s other : List Char}
    (same : other.dropWhile isSpace = s.dropWhile isSpace) : token p other = token p s := by
  rw [token_apply, token_apply, same]

/-- The signs before a number are folded into its constant one by one. -/
theorem signed_withSigns {s text rest : List Char} (read : number s = .ok text rest)
    {gaps : List (List Char)} (blank : ∀ gap ∈ gaps, ∀ c ∈ gap, isSpace c = true)
    {clock : List Char} (room : gaps.length ≤ clock.length) {input : List Char}
    (same : input.dropWhile isSpace = (withSigns gaps s).dropWhile isSpace) :
    signed (Nested.within clock) input =
      .ok (negated^[gaps.length] (.literal (numberLiteral text))) rest := by
  -- The clock loses a character with each sign, and so does the text.
  induction gaps generalizing clock input with
  | nil =>
      obtain ⟨c, more, starts, isFirst⟩ := exists_starts_of_number read
      have begins : input.dropWhile isSpace = c :: more := same.trans starts
      have noSign : ∀ sign : Char, sign = '-' ∨ sign = '+' → c ≠ sign := by
        rintro sign isSign rfl
        rcases isSign with rfl | rfl <;> exact absurd isFirst (by decide)
      have noMinus := symbol_misses_of_starts begins (noSign '-' (.inl rfl))
      have noPlus := symbol_misses_of_starts begins (noSign '+' (.inr rfl))
      refine (bind_of_ok (optional_of_misses noMinus)).trans ?_
      refine (bind_of_ok (optional_of_misses noPlus)).trans ?_
      exact primary_of_starts begins _ isFirst ((token_congr _ same).trans read)
  | cons gap gaps ih =>
      cases clock with
      | nil => cases room
      | cons tick clock =>
          have begins : input.dropWhile isSpace = '-' :: withSigns gaps s := by
            rw [same, withSigns, List.foldr_cons]
            rw [dropWhile_run (blank gap List.mem_cons_self) (by rintro _ ⟨⟩; decide)]
            rfl
          have inner := ih (fun gap inGaps => blank gap (List.mem_cons_of_mem _ inGaps))
            (Nat.le_of_succ_le_succ room) (List.dropWhile_idempotent _ _)
          refine (bind_of_ok (optional_of_ok (symbol_of_starts begins))).trans ?_
          rw [List.length_cons, Function.iterate_succ_apply']
          exact bind_of_ok inner

/-! ## Constants with signs -/

theorem negated_iterate_integer (k : ℕ) {i : ℤ} (inRange : i.natAbs ≤ maxInteger) :
    negated^[k] (.literal (.integer i)) = .literal (.integer ((-1) ^ k * i)) := by
  induction k with
  | zero => simp
  | succ k ih =>
      have stillInRange : ((-1) ^ k * i).natAbs ≤ maxInteger := by
        rwa [Int.natAbs_mul, Int.natAbs_pow, Int.natAbs_neg, Int.natAbs_one, one_pow, one_mul]
      rw [Function.iterate_succ_apply', ih, negated_integer stillInRange, pow_succ, mul_neg_one,
        neg_mul]

theorem negated_iterate_decimal (k : ℕ) (digits : List Char) :
    negated^[k] (.literal (.decimal (String.ofList digits))) =
      .literal (.decimal (String.ofList (List.replicate k '-' ++ digits))) := by
  induction k with
  | zero => rfl
  | succ k ih =>
      have signed : "-" ++ String.ofList (List.replicate k '-' ++ digits) =
          String.ofList (List.replicate (k + 1) '-' ++ digits) := by
        apply String.toList_inj.mp
        simp [List.replicate_succ]
      rw [Function.iterate_succ_apply', ih, negated, signed]

/-- An integer that is read stays between the bounds of its type, and so does its
negative: the least integer, which has none, is never read. -/
theorem integer_bounds_of_signed {clock s rest : List Char} {i : ℤ}
    (read : signed (Nested.within clock) s = .ok (.literal (.integer i)) rest) :
    -2 ^ 63 < i ∧ i < 2 ^ 63 := by
  have regular := (signed_yields (Nested.readsRegular_within clock)).of_ok read
  have small : i.natAbs ≤ maxInteger := regular.1.spelled
  rw [maxInteger] at small
  omega

end Sql

/-! ## Numbers in queries -/

namespace Sparql

open Sql.Lexer Sql.Expression

/-- The number can be written with minus signs before it: as an integer with any
number of them, and else with one at most if it does not end in its point. -/
def Numeral.Signable (n : Numeral) (signs : ℕ) : Prop :=
  n.FitsInteger ∨ signs ≤ 1 ∧ ¬ n.EndsInPoint

theorem Numeral.FitsInteger.numericLiteral_iff {n : Numeral} (fits : n.FitsInteger) (signs : ℕ)
    {value : ℚ} :
    NumericLiteral (Literal.integer ((-1) ^ signs * digitsValue n.whole.1)).chars value ↔
      n.Signable signs ∧ value = (-1) ^ signs * n.value := by
  rw [Literal.chars, numericLiteral_toString_iff, Numeral.value_of_digits fits.1 fits.2.1]
  simp [Numeral.Signable, fits]

theorem Numeral.numericLiteral_iff_of_not_fitsInteger {n : Numeral} (complete : n.Complete)
    (large : ¬ n.FitsInteger) (signs : ℕ) {value : ℚ} :
    NumericLiteral
        (Literal.decimal (String.ofList (List.replicate signs '-' ++ n.text))).chars value ↔
      n.Signable signs ∧ value = (-1) ^ signs * n.value := by
  rw [Literal.chars, String.toList_ofList]
  cases signs with
  | zero =>
      rw [List.replicate_zero, List.nil_append, numericLiteral_text_iff, complete.allowed_iff]
      simp [Numeral.Signable, large]
  | succ signs =>
      cases signs with
      | zero =>
          rw [List.replicate_one, List.singleton_append, numericLiteral_minus_iff]
          constructor
          · rintro ⟨other, allowed, written, rfl⟩
            cases Numeral.text_injective written
            exact ⟨.inr ⟨le_rfl, complete.allowed_iff.mp allowed⟩, by simp⟩
          · rintro ⟨signable, rfl⟩
            have goesOn := signable.resolve_left large
            exact ⟨n, complete.allowed_iff.mpr goesOn.2, rfl, by simp⟩
      | succ signs =>
          rw [List.replicate_succ, List.replicate_succ, List.cons_append, List.cons_append]
          refine iff_of_false not_numericLiteral_minus_minus ?_
          rintro ⟨fits | few, _⟩
          · exact large fits
          · exact absurd few.1 (by omega)

end Sparql

namespace Compile

open Sql.Lexer Sql.Expression

/-- A number with minus signs before it is read as one constant.  Its text is a
numeric literal of SPARQL exactly when the number fits an integer, or has one sign at
most and does not end in its point; it denotes the number with its signs then.  An
integer constant always stays between the bounds of its type.  A clock with a
character for each sign is enough, and the text of the statement is one. -/
theorem numericLiteral_signed_iff {s text rest clock : List Char} {gaps : List (List Char)}
    (read : number s = .ok text rest) (blank : ∀ gap ∈ gaps, ∀ c ∈ gap, isSpace c = true)
    (room : gaps.length ≤ clock.length) :
    (∃ (n : Numeral) (literal : Sql.Literal) (constant : Literal), n.text = text ∧
      signed (Sql.Nested.within clock) (Sql.withSigns gaps s) = .ok (.literal literal) rest ∧
      literal? literal = some constant ∧
      ∀ value, NumericLiteral constant.chars value ↔
        n.Signable gaps.length ∧ value = (-1) ^ gaps.length * n.value) ∧
    ∀ input i left,
      signed (Sql.Nested.within clock) input = .ok (.literal (.integer i)) left →
        -2 ^ 63 < i ∧ i < 2 ^ 63 := by
  refine ⟨?_, fun _ _ _ => Sql.integer_bounds_of_signed⟩
  have folded := Sql.signed_withSigns read blank room rfl
  obtain ⟨n, rfl, complete⟩ := Numeral.exists_of_isNumber (number_yields.of_ok read)
  by_cases fits : n.FitsInteger
  · have inRange : (digitsValue n.whole.1 : ℤ).natAbs ≤ maxInteger := fits.2.2
    rw [fits.numberLiteral_text, Sql.negated_iterate_integer _ inRange] at folded
    exact ⟨n, _, _, rfl, folded, rfl, fun value => fits.numericLiteral_iff gaps.length⟩
  · rw [Numeral.numberLiteral_text_of_not_fitsInteger fits, Sql.negated_iterate_decimal] at folded
    exact ⟨n, _, _, rfl, folded, rfl, fun value =>
      Numeral.numericLiteral_iff_of_not_fitsInteger complete fits gaps.length⟩

/-- One sign before a number with a fraction. -/
theorem numericLiteral_signed_iff_oneSign :
    ∃ literal constant,
      signed (Sql.Nested.within " -1.5".toList) " -1.5".toList = .ok (.literal literal) [] ∧
      literal? literal = some constant ∧ NumericLiteral constant.chars (-(3 / 2)) := by
  have read : number "1.5".toList = .ok "1.5".toList [] := rfl
  have blank : ∀ gap ∈ [[' ']], ∀ c ∈ gap, isSpace c = true :=
    List.forall_mem_singleton.mpr (List.forall_mem_singleton.mpr rfl)
  obtain ⟨n, literal, constant, written, isRead, isConstant, denotes⟩ :=
    (@numericLiteral_signed_iff _ _ _ " -1.5".toList _ read blank (by decide)).1
  obtain rfl : n = ⟨⟨['1'], List.forall_mem_singleton.mpr rfl⟩,
      some ⟨['5'], List.forall_mem_singleton.mpr rfl⟩, none⟩ :=
    Numeral.text_injective (written.trans rfl)
  have fifteen : digitsValue ['1', '5'] = 15 := by decide
  refine ⟨literal, constant, isRead, isConstant, (denotes _).mpr ⟨.inr ⟨le_rfl, ?_⟩, ?_⟩⟩
  · rintro ⟨_, digits, ⟨⟩, empty⟩
    cases empty
  · norm_num [Numeral.value, Numeral.decimals, fifteen]

/-- Three signs before a number with a fraction do not cancel out, and a number that
ends in its point is written so: neither text is a numeric literal. -/
theorem not_numericLiteral_signed :
    (signed (Sql.Nested.within "- - -1.5".toList) "- - -1.5".toList =
        .ok (.literal (.decimal "---1.5")) [] ∧
      ∀ value, ¬ NumericLiteral (Literal.decimal "---1.5").chars value) ∧
    signed (Sql.Nested.within "1.".toList) "1.".toList = .ok (.literal (.decimal "1.")) [] ∧
      ∀ value, ¬ NumericLiteral (Literal.decimal "1.").chars value := by
  have read : number "1.5".toList = .ok "1.5".toList [] := rfl
  have isBlank : ∀ c ∈ [' '], isSpace c = true := List.forall_mem_singleton.mpr rfl
  have blank : ∀ gap ∈ [[], [' '], [' ']], ∀ c ∈ gap, isSpace c = true :=
    List.forall_mem_cons.mpr ⟨List.forall_mem_nil _,
      List.forall_mem_cons.mpr ⟨isBlank, List.forall_mem_singleton.mpr isBlank⟩⟩
  have room : 3 ≤ "- - -1.5".toList.length := by decide
  have folded := Sql.signed_withSigns read blank room rfl
  refine ⟨⟨folded.trans rfl, fun value => not_numericLiteral_minus_minus⟩, rfl,
    fun value literal => ?_⟩
  have written : (Literal.decimal "1.").chars =
      (⟨⟨['1'], List.forall_mem_singleton.mpr rfl⟩, some ⟨[], List.forall_mem_nil _⟩, none⟩ :
        Numeral).text := rfl
  rw [written, numericLiteral_text_iff] at literal
  cases literal.1 with
  | decimal present => exact present rfl

end Compile

end TripleTables
