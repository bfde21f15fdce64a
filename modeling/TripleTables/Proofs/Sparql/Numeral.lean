import TripleTables.Graph.Literal
import TripleTables.Proofs.Sql.Primary

/-!
# Numbers in texts

A `Numeral` is the text of a number without a sign, in its parts: digits, a point
with more digits, an exponent.  The parts are determined by the text
(`Numeral.text_injective`), so a text denotes one number at most.

Numerals of statements and of SPARQL differ in one form only: a statement may end
a number in its point.  A numeric literal of SPARQL takes at most one sign.
-/

namespace TripleTables.Sparql

open TripleTables.Sql.Lexer

/-! ## Numerals -/

/-- A text of digits, which may be empty. -/
abbrev Digits := { text : List Char // ∀ c ∈ text, c.isDigit = true }

/-- The sign of an exponent. -/
inductive Sign where
  | plus
  | minus
deriving DecidableEq

/-- The sign as it is written. -/
def Sign.char : Sign → Char
  | .plus => '+'
  | .minus => '-'

/-- The exponent of a number. -/
structure Exponent where
  /-- The mark is a capital letter. -/
  capital : Bool
  sign : Option Sign
  digits : Digits

namespace Exponent

/-- The letter before an exponent. -/
def mark (capital : Bool) : Char :=
  if capital then 'E' else 'e'

/-- The exponent as it is written, with its mark. -/
def text (exponent : Exponent) : List Char :=
  mark exponent.capital :: ((exponent.sign.map Sign.char).toList ++ exponent.digits.1)

/-- The power of ten that the exponent stands for. -/
def value (exponent : Exponent) : ℤ :=
  if exponent.sign = some .minus then -(digitsValue exponent.digits.1 : ℤ)
  else digitsValue exponent.digits.1

end Exponent

/-- A number without a sign, as it is written. -/
structure Numeral where
  /-- The digits before the point. -/
  whole : Digits
  /-- The digits behind the point, if there is one. -/
  fraction : Option Digits
  exponent : Option Exponent

/-- A point and the digits behind it. -/
def pointText : Option Digits → List Char
  | none => []
  | some digits => '.' :: digits.1

/-- An exponent that may be absent. -/
def exponentText : Option Exponent → List Char
  | none => []
  | some exponent => exponent.text

namespace Numeral

/-- The number as it is written. -/
def text (n : Numeral) : List Char :=
  n.whole.1 ++ (pointText n.fraction ++ exponentText n.exponent)

/-- The digits behind the point. -/
def decimals (n : Numeral) : List Char :=
  (n.fraction.map Subtype.val).getD []

/-- The number: all digits, with the point moved back over the decimals and then by
the exponent. -/
def value (n : Numeral) : ℚ :=
  digitsValue (n.whole.1 ++ n.decimals) *
    10 ^ ((n.exponent.map Exponent.value).getD 0 - n.decimals.length)

end Numeral

/-! ## Parts of a text -/

/-- Digits end where no digit follows. -/
theorem digits_append_inj {first second : Digits} {rest rest' : List Char}
    (stop : ∀ c ∈ rest.head?, c.isDigit = false) (stop' : ∀ c ∈ rest'.head?, c.isDigit = false)
    (same : first.1 ++ rest = second.1 ++ rest') : first = second ∧ rest = rest' := by
  have taken := congrArg (List.takeWhile Char.isDigit) same
  have dropped := congrArg (List.dropWhile Char.isDigit) same
  rw [takeWhile_run first.2 stop, takeWhile_run second.2 stop'] at taken
  rw [dropWhile_run first.2 stop, dropWhile_run second.2 stop'] at dropped
  exact ⟨Subtype.ext taken, dropped⟩

theorem head_exponentText {exponent : Option Exponent} :
    ∀ c ∈ (exponentText exponent).head?, c = 'e' ∨ c = 'E' := by
  cases exponent with
  | none => simp [exponentText]
  | some exponent =>
      intro c isFirst
      cases isFirst
      cases exponent.capital with
      | false => exact .inl rfl
      | true => exact .inr rfl

theorem not_isDigit_of_head_exponentText {exponent : Option Exponent} :
    ∀ c ∈ (exponentText exponent).head?, c.isDigit = false := by
  intro c isFirst
  rcases head_exponentText c isFirst with rfl | rfl <;> decide

theorem not_isDigit_of_head_tail {fraction : Option Digits} {exponent : Option Exponent} :
    ∀ c ∈ (pointText fraction ++ exponentText exponent).head?, c.isDigit = false := by
  cases fraction with
  | none => exact not_isDigit_of_head_exponentText
  | some digits =>
      intro c isFirst
      cases isFirst
      decide

theorem Sign.not_isDigit_char (sign : Sign) : sign.char.isDigit = false := by
  cases sign <;> decide

theorem Sign.char_injective : Function.Injective Sign.char := by
  intro first second same
  cases first <;> cases second <;> first | rfl | exact absurd same (by decide)

theorem Exponent.text_injective : Function.Injective Exponent.text := by
  rintro ⟨capital, sign, digits⟩ ⟨capital', sign', digits'⟩ same
  obtain ⟨sameMark, same⟩ := List.cons.inj same
  have markInjective : ∀ capital capital', mark capital = mark capital' → capital = capital' := by
    decide
  obtain rfl : capital = capital' := markInjective _ _ sameMark
  -- A sign is no digit, so it cannot begin the digits of the other exponent.
  have noSign : ∀ {digits : Digits} {sign : Sign} {rest : List Char},
      digits.1 ≠ sign.char :: rest := by
    intro digits sign rest begins
    have isDigit := digits.2 sign.char (begins ▸ List.mem_cons_self)
    rw [sign.not_isDigit_char] at isDigit
    cases isDigit
  cases sign with
  | none =>
      cases sign' with
      | none =>
          obtain rfl : digits = digits' := Subtype.ext same
          rfl
      | some sign' => exact absurd same noSign
  | some sign =>
      cases sign' with
      | none => exact absurd same.symm noSign
      | some sign' =>
          obtain ⟨sameSign, same⟩ := List.cons.inj same
          obtain rfl := Sign.char_injective sameSign
          obtain rfl : digits = digits' := Subtype.ext same
          rfl

theorem exponentText_injective : Function.Injective exponentText := by
  intro first second same
  cases first with
  | none =>
      cases second with
      | none => rfl
      | some second => cases same
  | some first =>
      cases second with
      | none => cases same
      | some second => rw [Exponent.text_injective same]

/-- The text of a number can be split into its parts in one way only. -/
theorem Numeral.text_injective : Function.Injective Numeral.text := by
  rintro ⟨whole, fraction, exponent⟩ ⟨whole', fraction', exponent'⟩ same
  obtain ⟨sameWhole, same⟩ :=
    digits_append_inj not_isDigit_of_head_tail not_isDigit_of_head_tail same
  obtain rfl : whole = whole' := sameWhole
  have noPoint : ∀ {exponent : Option Exponent} {rest : List Char},
      exponentText exponent ≠ '.' :: rest := by
    intro exponent rest begins
    rcases head_exponentText '.' (by rw [begins]; rfl) with other | other <;> cases other
  cases fraction with
  | none =>
      cases fraction' with
      | none =>
          obtain rfl : exponent = exponent' := exponentText_injective same
          rfl
      | some _ => exact absurd same noPoint
  | some digits =>
      cases fraction' with
      | none => exact absurd same.symm noPoint
      | some digits' =>
          obtain ⟨rfl, same⟩ := digits_append_inj not_isDigit_of_head_exponentText
            not_isDigit_of_head_exponentText (List.cons.inj same).2
          obtain rfl : exponent = exponent' := exponentText_injective same
          rfl

/-- No number without a sign begins with one. -/
theorem Numeral.head_text {n : Numeral} : ∀ c ∈ n.text.head?, c ≠ '+' ∧ c ≠ '-' := by
  intro c isFirst
  have inside : c.isDigit = true ∨ c = '.' ∨ c = 'e' ∨ c = 'E' := by
    obtain ⟨⟨whole, isDigits⟩, fraction, exponent⟩ := n
    cases whole with
    | cons d more =>
        cases isFirst
        exact .inl (isDigits _ List.mem_cons_self)
    | nil =>
        cases fraction with
        | some digits =>
            cases isFirst
            exact .inr (.inl rfl)
        | none => exact .inr (.inr (head_exponentText c isFirst))
  constructor
  · rintro rfl
    exact absurd inside (by decide)
  · rintro rfl
    exact absurd inside (by decide)

/-! ## Numeric literals of SPARQL -/

/-- The numerals that SPARQL allows. -/
inductive Numeral.Allowed : Numeral → Prop
  /-- Digits alone: the form `INTEGER`. -/
  | integer {whole : Digits} (present : whole.1 ≠ []) : Allowed ⟨whole, none, none⟩
  /-- A point with at least one digit behind it: the form `DECIMAL`. -/
  | decimal {whole fraction : Digits} (present : fraction.1 ≠ []) :
      Allowed ⟨whole, some fraction, none⟩
  /-- An exponent behind a digit, with or without a point: the form `DOUBLE`. -/
  | double {whole : Digits} {fraction : Option Digits} {exponent : Exponent}
      (present : whole.1 ≠ [] ∨ ∃ digits ∈ fraction, digits.1 ≠ [])
      (power : exponent.digits.1 ≠ []) : Allowed ⟨whole, fraction, some exponent⟩

/-- The text is a numeric literal of SPARQL and denotes the number. -/
inductive NumericLiteral : List Char → ℚ → Prop
  | unsigned {n : Numeral} (allowed : n.Allowed) : NumericLiteral n.text n.value
  | positive {n : Numeral} (allowed : n.Allowed) : NumericLiteral ('+' :: n.text) n.value
  | negative {n : Numeral} (allowed : n.Allowed) : NumericLiteral ('-' :: n.text) (-n.value)

theorem numericLiteral_text_iff {n : Numeral} {value : ℚ} :
    NumericLiteral n.text value ↔ n.Allowed ∧ value = n.value := by
  constructor
  · intro literal
    generalize written : n.text = text at literal
    cases literal with
    | unsigned allowed =>
        cases Numeral.text_injective written
        exact ⟨allowed, rfl⟩
    | positive _ => exact absurd rfl (n.head_text '+' (by rw [written]; rfl)).1
    | negative _ => exact absurd rfl (n.head_text '-' (by rw [written]; rfl)).2
  · rintro ⟨allowed, rfl⟩
    exact .unsigned allowed

/-- Behind a sign there is a numeral. -/
theorem numericLiteral_minus_iff {text : List Char} {value : ℚ} :
    NumericLiteral ('-' :: text) value ↔
      ∃ n : Numeral, n.Allowed ∧ n.text = text ∧ value = -n.value := by
  constructor
  · intro literal
    generalize written : '-' :: text = signed at literal
    cases literal with
    | @unsigned n allowed => exact absurd rfl (n.head_text '-' (by rw [← written]; rfl)).2
    | positive _ => cases written
    | @negative n allowed => exact ⟨n, allowed, (List.cons.inj written).2.symm, rfl⟩
  · rintro ⟨n, allowed, rfl, rfl⟩
    exact .negative allowed

theorem not_numericLiteral_minus_minus {text : List Char} {value : ℚ} :
    ¬ NumericLiteral ('-' :: '-' :: text) value := by
  rw [numericLiteral_minus_iff]
  rintro ⟨n, _, written, _⟩
  exact (n.head_text '-' (by rw [written]; rfl)).2 rfl

/-! ## Integers -/

namespace Numeral

/-- The digits of a number without leading zeros. -/
def ofNat (k : ℕ) : Numeral :=
  ⟨⟨Nat.toDigits 10 k, (isDigits_toDigits k).2⟩, none, none⟩

theorem text_ofNat (k : ℕ) : (ofNat k).text = Nat.toDigits 10 k := by
  simp [text, ofNat, pointText, exponentText]

/-- Digits alone denote their value. -/
theorem value_of_digits {n : Numeral} (noPoint : n.fraction = none)
    (noExponent : n.exponent = none) : n.value = digitsValue n.whole.1 := by
  simp [value, decimals, noPoint, noExponent]

theorem value_ofNat (k : ℕ) : (ofNat k).value = k := by
  rw [value_of_digits rfl rfl, ofNat, digitsValue_toDigits]

theorem allowed_ofNat (k : ℕ) : (ofNat k).Allowed :=
  .integer (isDigits_toDigits k).1

end Numeral

/-- An integer is written as a numeric literal that denotes it. -/
theorem numericLiteral_toString_iff {i : ℤ} {value : ℚ} :
    NumericLiteral (toString i).toList value ↔ value = i := by
  cases i with
  | ofNat k =>
      have written : (toString (Int.ofNat k)).toList = (Numeral.ofNat k).text :=
        (Sql.toList_toString_natCast k).trans (Numeral.text_ofNat k).symm
      rw [written, numericLiteral_text_iff, Numeral.value_ofNat]
      simp [Numeral.allowed_ofNat]
  | negSucc k =>
      have denoted : ((Int.negSucc k : ℤ) : ℚ) = -(Numeral.ofNat (k + 1)).value := by
        rw [Numeral.value_ofNat, Int.cast_negSucc]
      rw [Sql.toList_toString_negSucc, ← Numeral.text_ofNat, numericLiteral_minus_iff, denoted]
      constructor
      · rintro ⟨n, _, written, rfl⟩
        rw [Numeral.text_injective written]
      · intro same
        exact ⟨_, Numeral.allowed_ofNat (k + 1), rfl, same⟩

/-! ## Numbers of statements -/

namespace Numeral

/-- There is a digit before or behind the point, and one in the exponent. -/
structure Complete (n : Numeral) : Prop where
  digits : n.whole.1 ≠ [] ∨ ∃ digits ∈ n.fraction, digits.1 ≠ []
  power : ∀ exponent ∈ n.exponent, exponent.digits.1 ≠ []

/-- Nothing follows the point. -/
def EndsInPoint (n : Numeral) : Prop :=
  n.exponent = none ∧ ∃ digits ∈ n.fraction, digits.1 = []

/-- The number is written in digits alone and is no greater than the greatest
integer. -/
def FitsInteger (n : Numeral) : Prop :=
  n.fraction = none ∧ n.exponent = none ∧ digitsValue n.whole.1 ≤ maxInteger

/-- SPARQL allows the numbers of statements that do not end in their point. -/
theorem Complete.allowed_iff {n : Numeral} (complete : n.Complete) :
    n.Allowed ↔ ¬ n.EndsInPoint := by
  constructor
  · rintro allowed ⟨noExponent, digits, isFraction, empty⟩
    cases allowed with
    | integer present => cases isFraction
    | decimal present =>
        cases isFraction
        exact present empty
    | double present power => cases noExponent
  · intro goesOn
    obtain ⟨whole, fraction, exponent⟩ := n
    cases exponent with
    | some exponent => exact .double complete.digits (complete.power exponent rfl)
    | none =>
        cases fraction with
        | some digits => exact .decimal fun empty => goesOn ⟨rfl, digits, rfl, empty⟩
        | none =>
            rcases complete.digits with present | ⟨_, isFraction, _⟩
            · exact .integer present
            · cases isFraction

theorem exists_exponent {text : List Char} (isExponent : IsExponent text) :
    ∃ exponent, exponentText exponent = text ∧ ∀ found ∈ exponent, found.digits.1 ≠ [] := by
  cases isExponent with
  | absent => exact ⟨none, rfl, by simp⟩
  | @digits mark sign digits isMark isSign isDigits =>
      obtain ⟨capital, rfl⟩ : ∃ capital, Exponent.mark capital = mark := by
        rcases isMark with rfl | rfl
        · exact ⟨false, rfl⟩
        · exact ⟨true, rfl⟩
      obtain ⟨found, rfl⟩ : ∃ found : Option Sign, (found.map Sign.char).toList = sign := by
        rcases isSign with rfl | rfl | rfl
        · exact ⟨none, rfl⟩
        · exact ⟨some .plus, rfl⟩
        · exact ⟨some .minus, rfl⟩
      refine ⟨some ⟨capital, found, ⟨digits, isDigits.2⟩⟩, rfl, ?_⟩
      rintro _ ⟨⟩
      exact isDigits.1

/-- The numbers of statements are numerals. -/
theorem exists_of_isNumber {text : List Char} (isNumber : IsNumber text) :
    ∃ n : Numeral, n.text = text ∧ n.Complete := by
  obtain ⟨mantissa, exponent, isMantissa, isExponent, rfl⟩ := isNumber
  obtain ⟨exponent, rfl, power⟩ := exists_exponent isExponent
  cases isMantissa with
  | whole isDigits =>
      exact ⟨⟨⟨_, isDigits.2⟩, none, exponent⟩, rfl, .inl isDigits.1, power⟩
  | @point whole fraction isDigits inside =>
      refine ⟨⟨⟨whole, isDigits.2⟩, some ⟨fraction, inside⟩, exponent⟩, ?_, .inl isDigits.1, power⟩
      simp [text, pointText]
  | fraction isDigits =>
      exact ⟨⟨⟨[], by simp⟩, some ⟨_, isDigits.2⟩, exponent⟩, rfl, .inr ⟨_, rfl, isDigits.1⟩, power⟩

theorem all_isDigit_text {n : Numeral} :
    n.text.all Char.isDigit = true ↔ n.fraction = none ∧ n.exponent = none := by
  rw [List.all_eq_true]
  constructor
  · intro inside
    constructor
    · cases point : n.fraction with
      | none => rfl
      | some digits => exact absurd (inside '.' (by simp [text, pointText, point])) (by decide)
    · cases power : n.exponent with
      | none => rfl
      | some exponent =>
          have isDigit := inside (Exponent.mark exponent.capital)
            (by simp [text, exponentText, power, Exponent.text])
          exact absurd isDigit (by cases exponent.capital <;> decide)
  · rintro ⟨noPoint, noExponent⟩ c member
    refine n.whole.2 c ?_
    simpa [text, pointText, exponentText, noPoint, noExponent] using member

theorem FitsInteger.numberLiteral_text {n : Numeral} (fits : n.FitsInteger) :
    numberLiteral n.text = .integer (digitsValue n.whole.1) := by
  obtain ⟨noPoint, noExponent, small⟩ := fits
  have written : n.text = n.whole.1 := by
    simp [text, pointText, exponentText, noPoint, noExponent]
  have inside : n.text.all Char.isDigit = true := all_isDigit_text.mpr ⟨noPoint, noExponent⟩
  rw [numberLiteral, inside, written]
  simp [small]

theorem numberLiteral_text_of_not_fitsInteger {n : Numeral} (large : ¬ n.FitsInteger) :
    numberLiteral n.text = .decimal (String.ofList n.text) := by
  refine if_neg fun isInteger => large ?_
  rw [Bool.and_eq_true, decide_eq_true_iff] at isInteger
  obtain ⟨inside, small⟩ := isInteger
  obtain ⟨noPoint, noExponent⟩ := all_isDigit_text.mp inside
  refine ⟨noPoint, noExponent, ?_⟩
  simpa [text, pointText, exponentText, noPoint, noExponent] using small

end Numeral

end TripleTables.Sparql
