import Mathlib
import TripleTables.Proofs.Sql.Reader
import TripleTables.Sql.Expression

/-!
# Lexemes and their texts

What the readers of words, quoted texts and numbers accept, character by
character, and that they read a text of the right shape back as it is written.
A reader stops at the first character that cannot go on the lexeme, so each
statement about reading back asks what the text after the lexeme starts with.
-/

namespace TripleTables.Sql.Lexer

open Reader

/-! ## Runs of characters -/

section Runs

variable {p : Char → Bool} {body rest : List Char}

theorem takeWhile_run (inside : ∀ c ∈ body, p c = true) (stop : ∀ c ∈ rest.head?, p c = false) :
    (body ++ rest).takeWhile p = body := by
  rw [List.takeWhile_append_of_pos inside]
  cases rest with
  | nil => simp
  | cons c more => simp [stop c rfl]

theorem dropWhile_run (inside : ∀ c ∈ body, p c = true) (stop : ∀ c ∈ rest.head?, p c = false) :
    (body ++ rest).dropWhile p = rest := by
  rw [List.dropWhile_append_of_pos inside]
  cases rest with
  | nil => rfl
  | cons c more => simp [stop c rfl]

end Runs

/-! ## Words -/

/-- The text is one word. -/
def IsWord (text : List Char) : Prop :=
  ∃ first more, text = first :: more ∧ isWordStart first = true ∧ ∀ c ∈ more, isWordChar c = true

theorem isWordChar_of_isWordStart {c : Char} (start : isWordStart c = true) :
    isWordChar c = true := by
  simp only [isWordStart, isWordChar, Char.isAlphanum, Bool.or_eq_true] at start ⊢
  exact .inl (start.imp .inl id)

theorem word_yields (condition : List Char → Bool) :
    Yields (word condition) fun found =>
      IsWord found.toList ∧ condition found.toList = true := by
  constructor
  intro s found rest read
  cases s with
  | nil => simp [word] at read
  | cons c more =>
      simp only [word] at read
      split at read
      · rename_i accepted
        rw [Bool.and_eq_true] at accepted
        cases read
        rw [String.toList_ofList]
        exact ⟨⟨c, _, rfl, accepted.1, fun d member => List.mem_takeWhile_imp member⟩, accepted.2⟩
      · contradiction

/-- A word is read up to its end. -/
theorem word_append {condition : List Char → Bool} {text rest : List Char} (isWord : IsWord text)
    (stop : ∀ c ∈ rest.head?, isWordChar c = false) :
    word condition (text ++ rest) =
      if condition text then .ok (String.ofList text) rest else .miss (text ++ rest) := by
  obtain ⟨first, more, rfl, start, inside⟩ := isWord
  simp only [word, List.cons_append, takeWhile_run inside stop, dropWhile_run inside stop,
    start, Bool.true_and]

/-! ## Quoted texts -/

/-- The text with every quote in it doubled. -/
def doubled (quote : Char) (value : List Char) : List Char :=
  value.flatMap fun c => if c = quote then [quote, quote] else [c]

/-- The text between quotes. -/
def inQuotes (quote : Char) (value : String) : List Char :=
  quote :: (doubled quote value.toList ++ [quote])

theorem unquote_cons_of_ne {quote c : Char} (different : c ≠ quote) {more : List Char}
    (goesOn : more ≠ []) :
    unquote quote (c :: more) =
      (unquote quote more).map fun found => (c :: found.1, found.2) := by
  cases more with
  | nil => contradiction
  | cons d rest => simp [unquote, different]

/-- Doubled quotes are read back, up to a quote that stands alone. -/
theorem unquote_doubled {quote : Char} {rest : List Char} (stop : rest.head? ≠ some quote)
    (value : List Char) :
    unquote quote (doubled quote value ++ quote :: rest) = some (value, rest) := by
  induction value with
  | nil =>
      cases rest with
      | nil => simp [doubled, unquote]
      | cons d more =>
          have different : d ≠ quote := by simpa using stop
          simp [doubled, unquote, different]
  | cons c value ih =>
      by_cases same : c = quote
      · subst c
        have written : doubled quote (quote :: value) = quote :: quote :: doubled quote value := by
          simp [doubled]
        rw [written, List.cons_append, List.cons_append, unquote]
        simp [ih]
      · have written : doubled quote (c :: value) = c :: doubled quote value := by
          simp [doubled, same]
        rw [written, List.cons_append, unquote_cons_of_ne same (by simp), ih]
        rfl

theorem quoted_inQuotes {quote : Char} {rest : List Char} (stop : rest.head? ≠ some quote)
    (value : String) : quoted quote (inQuotes quote value ++ rest) = .ok value rest := by
  have body := unquote_doubled stop value.toList
  simp [inQuotes, quoted, body]

/-! ## Digits -/

/-- The text is one or more digits. -/
def IsDigits (text : List Char) : Prop :=
  text ≠ [] ∧ ∀ c ∈ text, c.isDigit = true

theorem takeDigits_append {text rest : List Char} (inside : ∀ c ∈ text, c.isDigit = true)
    (stop : ∀ c ∈ rest.head?, c.isDigit = false) : takeDigits (text ++ rest) = (text, rest) := by
  rw [takeDigits, takeWhile_run inside stop, dropWhile_run inside stop]

theorem takeDigits_fst (s : List Char) : ∀ c ∈ (takeDigits s).1, c.isDigit = true :=
  fun _ member => List.mem_takeWhile_imp member

/-- The digits of a number stand for it. -/
theorem digitsValue_toDigits (n : Nat) : digitsValue (Nat.toDigits 10 n) = n := by
  have value := Nat.ofDigitChars_ten_toDigits (n := n)
  rw [Nat.ofDigitChars_eq_foldl] at value
  simpa [digitsValue, Nat.mul_comm] using value

theorem isDigits_toDigits (n : Nat) : IsDigits (Nat.toDigits 10 n) :=
  ⟨Nat.toDigits_ne_nil, fun _ member => Nat.isDigit_of_mem_toDigits (by decide) (by decide) member⟩

/-! ## Numbers -/

/-- Digits with a point among or after them, or before them. -/
inductive IsMantissa : List Char → Prop
  | whole {digits : List Char} (isDigits : IsDigits digits) : IsMantissa digits
  | point {whole fraction : List Char} (isDigits : IsDigits whole)
      (inside : ∀ c ∈ fraction, c.isDigit = true) : IsMantissa (whole ++ '.' :: fraction)
  | fraction {fraction : List Char} (isDigits : IsDigits fraction) : IsMantissa ('.' :: fraction)

/-- Nothing, or a mark with digits that may have a sign. -/
inductive IsExponent : List Char → Prop
  | absent : IsExponent []
  | digits {mark : Char} {sign digits : List Char} (isMark : mark = 'e' ∨ mark = 'E')
      (isSign : sign = [] ∨ sign = ['+'] ∨ sign = ['-']) (isDigits : IsDigits digits) :
      IsExponent (mark :: sign ++ digits)

/-- The text is a number without a sign. -/
def IsNumber (text : List Char) : Prop :=
  ∃ mantissa exponent, IsMantissa mantissa ∧ IsExponent exponent ∧ text = mantissa ++ exponent

theorem isMantissa_of_takeMantissa {s mantissa rest : List Char}
    (taken : takeMantissa s = some (mantissa, rest)) : IsMantissa mantissa := by
  unfold takeMantissa at taken
  have inside := takeDigits_fst s
  split at taken
  · rename_i left split
    split at taken
    · contradiction
    · rename_i fraction after missing split'
      cases taken
      have inside' := takeDigits_fst left
      rw [split'] at inside'
      exact .fraction ⟨by simpa using missing, inside'⟩
  · contradiction
  · rename_i whole left missing split
    cases taken
    rw [split] at inside
    exact .point ⟨by simpa using missing, inside⟩ (takeDigits_fst left)
  · rename_i whole left _ missing _ split
    cases taken
    rw [split] at inside
    exact .whole ⟨by simpa using missing, inside⟩

theorem isExponent_of_takeExponent {s exponent rest : List Char}
    (taken : takeExponent s = (exponent, rest)) : IsExponent exponent := by
  cases s with
  | nil =>
      cases taken
      exact .absent
  | cons mark more =>
      simp only [takeExponent] at taken
      split at taken
      · rename_i isMark
        have inside := takeDigits_fst (takeSign more).2
        split at taken
        · cases taken
          exact .absent
        · rename_i digits left missing split
          cases taken
          rw [split] at inside
          refine .digits (by simpa using isMark) ?_ ⟨by simpa using missing, inside⟩
          unfold takeSign
          split <;> simp
      · cases taken
        exact .absent

/-- A mantissa is read back unless more of it follows. -/
theorem takeMantissa_append {mantissa rest : List Char} (isMantissa : IsMantissa mantissa)
    (stop : ∀ c ∈ rest.head?, c.isDigit = false ∧ c ≠ '.') :
    takeMantissa (mantissa ++ rest) = some (mantissa, rest) := by
  have noDigit : ∀ c ∈ rest.head?, c.isDigit = false := fun c first => (stop c first).1
  have atPoint : ∀ more : List Char, ∀ c ∈ ('.' :: more).head?, c.isDigit = false := by
    intro more c first
    cases first
    decide
  cases isMantissa with
  | whole isDigits =>
      rw [takeMantissa, takeDigits_append isDigits.2 noDigit]
      cases rest with
      | nil => cases mantissa with
        | nil => exact absurd rfl isDigits.1
        | cons c more => rfl
      | cons d rest =>
          have noPoint : d ≠ '.' := (stop d rfl).2
          cases mantissa with
          | nil => exact absurd rfl isDigits.1
          | cons c more => simp [noPoint]
  | @point whole fraction isDigits inside =>
      rw [List.append_assoc, List.cons_append, takeMantissa,
        takeDigits_append isDigits.2 (atPoint _)]
      cases whole with
      | nil => exact absurd rfl isDigits.1
      | cons c more => simp [takeDigits_append inside noDigit]
  | @fraction fraction isDigits =>
      have none : takeDigits ('.' :: (fraction ++ rest)) = ([], '.' :: (fraction ++ rest)) :=
        @takeDigits_append [] _ (by simp) (atPoint _)
      rw [List.cons_append, takeMantissa, none]
      simp only [takeDigits_append isDigits.2 noDigit]
      cases fraction with
      | nil => exact absurd rfl isDigits.1
      | cons c more => rfl

/-- An exponent is read back unless more of it follows. -/
theorem takeExponent_append {exponent rest : List Char} (isExponent : IsExponent exponent)
    (stop : ∀ c ∈ rest.head?, c.isDigit = false ∧ c ≠ 'e' ∧ c ≠ 'E') :
    takeExponent (exponent ++ rest) = (exponent, rest) := by
  have noDigit : ∀ c ∈ rest.head?, c.isDigit = false := fun c first => (stop c first).1
  cases isExponent with
  | absent =>
      cases rest with
      | nil => rfl
      | cons d rest =>
          have noMark := (stop d rfl).2
          simp [takeExponent, noMark]
  | @digits mark sign digits isMark isSign isDigits =>
      have marked : (mark == 'e' || mark == 'E') = true := by simpa using isMark
      have signed : takeSign (sign ++ (digits ++ rest)) = (sign, digits ++ rest) := by
        rcases isSign with rfl | rfl | rfl
        · -- A digit is no sign.
          cases digits with
          | nil => exact absurd rfl isDigits.1
          | cons c more =>
              have isDigit := isDigits.2 c (by simp)
              unfold takeSign
              split
              · rename_i same
                cases same
                exact absurd isDigit (by decide)
              · rename_i same
                cases same
                exact absurd isDigit (by decide)
              · rfl
        · rfl
        · rfl
      rw [List.cons_append, List.cons_append, List.append_assoc]
      simp only [takeExponent, marked, if_true, signed, takeDigits_append isDigits.2 noDigit]
      cases digits with
      | nil => exact absurd rfl isDigits.1
      | cons c more => rfl

theorem IsMantissa.head {mantissa : List Char} (isMantissa : IsMantissa mantissa) :
    ∃ c more, mantissa = c :: more ∧ (c.isDigit = true ∨ c = '.') := by
  have first : ∀ {digits : List Char}, IsDigits digits →
      ∃ c more, digits = c :: more ∧ c.isDigit = true := by
    intro digits isDigits
    cases digits with
    | nil => exact absurd rfl isDigits.1
    | cons c more => exact ⟨c, more, rfl, isDigits.2 c (by simp)⟩
  cases isMantissa with
  | whole isDigits =>
      obtain ⟨c, more, rfl, isDigit⟩ := first isDigits
      exact ⟨c, more, rfl, .inl isDigit⟩
  | point isDigits inside =>
      obtain ⟨c, more, rfl, isDigit⟩ := first isDigits
      exact ⟨c, _, rfl, .inl isDigit⟩
  | fraction isDigits => exact ⟨'.', _, rfl, .inr rfl⟩

theorem IsNumber.head {text : List Char} (isNumber : IsNumber text) :
    ∃ c more, text = c :: more ∧ (c.isDigit = true ∨ c = '.') := by
  obtain ⟨mantissa, exponent, isMantissa, _, rfl⟩ := isNumber
  obtain ⟨c, more, rfl, isFirst⟩ := isMantissa.head
  exact ⟨c, more ++ exponent, rfl, isFirst⟩

/-- No number starts with a blank. -/
theorem isSpace_eq_false_of_isDigit {c : Char} (isFirst : c.isDigit = true ∨ c = '.') :
    isSpace c = false := by
  rcases isFirst with isDigit | rfl
  · by_contra space
    simp only [isSpace, Bool.not_eq_false, Bool.or_eq_true, beq_iff_eq] at space
    rcases space with ((rfl | rfl) | rfl) | rfl <;> exact absurd isDigit (by decide)
  · decide

theorem IsDigits.isNumber {digits : List Char} (isDigits : IsDigits digits) : IsNumber digits :=
  ⟨digits, [], .whole isDigits, .absent, (List.append_nil digits).symm⟩

/-! ## Tokens -/

/-- A token is read between the blanks around it. -/
theorem token_apply {α : Type} (p : Lexer α) (s : List Char) :
    token p s =
      match p (s.dropWhile isSpace) with
      | .ok value rest => .ok value (rest.dropWhile isSpace)
      | .miss error => .miss error
      | .halt error => .halt error
      | .torn place => .torn place := by
  cases read : p (s.dropWhile isSpace) <;> simp [token, bind_apply, spaces, read]

theorem token_yields {α : Type} {p : Lexer α} {holds : α → Prop} (yields : Yields p holds) :
    Yields (token p) holds := by
  apply Yields.andThen
  intro _
  apply Yields.bind yields
  intro value isGood
  apply Yields.andThen
  intro _
  exact Yields.pure isGood

theorem number_yields : Yields number IsNumber := by
  apply token_yields
  constructor
  intro s text rest read
  split at read
  · contradiction
  · rename_i mantissa middle taken
    cases read
    exact ⟨mantissa, _, isMantissa_of_takeMantissa taken,
      isExponent_of_takeExponent (s := middle) rfl, rfl⟩

/-- The character can neither go on a number nor a word. -/
def EndsLexeme (c : Char) : Prop :=
  c.isDigit = false ∧ c ≠ '.' ∧ isWordChar c = false

theorem number_append {text rest : List Char} (isNumber : IsNumber text)
    (stop : ∀ c ∈ rest.head?, EndsLexeme c) :
    number (text ++ rest) = .ok text (rest.dropWhile isSpace) := by
  have flush : (text ++ rest).dropWhile isSpace = text ++ rest := by
    obtain ⟨c, more, rfl, isFirst⟩ := isNumber.head
    simp [isSpace_eq_false_of_isDigit isFirst]
  obtain ⟨mantissa, exponent, isMantissa, isExponent, rfl⟩ := isNumber
  have noMark : ∀ c ∈ rest.head?, c.isDigit = false ∧ c ≠ 'e' ∧ c ≠ 'E' := by
    intro c first
    obtain ⟨noDigit, _, noWord⟩ := stop c first
    refine ⟨noDigit, ?_, ?_⟩
    · rintro rfl
      exact absurd noWord (by decide)
    · rintro rfl
      exact absurd noWord (by decide)
  have afterMantissa : ∀ c ∈ (exponent ++ rest).head?, c.isDigit = false ∧ c ≠ '.' := by
    cases isExponent with
    | absent =>
        intro c first
        exact ⟨(stop c first).1, (stop c first).2.1⟩
    | digits isMark _ _ =>
        intro c first
        cases first
        rcases isMark with rfl | rfl <;> decide
  refine (token_apply _ _).trans ?_
  rw [flush, List.append_assoc]
  simp only [takeMantissa_append isMantissa afterMantissa, takeExponent_append isExponent noMark]

/-! ## Constants -/

/-- A number with a fraction or an exponent, or one that is too large for an
integer, with any number of signs before it. -/
inductive IsDecimal : List Char → Prop
  | unsigned {text : List Char} (isNumber : IsNumber text)
      (noInteger : numberLiteral text = .decimal (String.ofList text)) : IsDecimal text
  | minus {text : List Char} (isDecimal : IsDecimal text) : IsDecimal ('-' :: text)

theorem IsDecimal.isNumber_or_minus {text : List Char} (isDecimal : IsDecimal text) :
    IsNumber text ∨ ∃ rest, text = '-' :: rest ∧ IsDecimal rest := by
  cases isDecimal with
  | unsigned isNumber _ => exact .inl isNumber
  | minus isDecimal => exact .inr ⟨_, rfl, isDecimal⟩

theorem IsDecimal.head {text : List Char} (isDecimal : IsDecimal text) :
    ∃ c more, text = c :: more ∧ (c.isDigit = true ∨ c = '.' ∨ c = '-') := by
  cases isDecimal with
  | unsigned isNumber _ =>
      obtain ⟨c, more, rfl, isFirst⟩ := isNumber.head
      exact ⟨c, more, rfl, isFirst.imp_right .inl⟩
  | minus _ => exact ⟨'-', _, rfl, .inr (.inr rfl)⟩

/-- Without a sign, a decimal is what its text stands for. -/
theorem IsDecimal.numberLiteral_eq {text : List Char} (isDecimal : IsDecimal text)
    (isNumber : IsNumber text) : numberLiteral text = .decimal (String.ofList text) := by
  cases isDecimal with
  | unsigned _ noInteger => exact noInteger
  | minus _ =>
      obtain ⟨c, more, chars, isFirst⟩ := isNumber.head
      cases chars
      exact absurd isFirst (by decide)

theorem numberLiteral_toDigits {n : Nat} (inRange : n ≤ maxInteger) :
    numberLiteral (Nat.toDigits 10 n) = .integer n := by
  have digits : (Nat.toDigits 10 n).all Char.isDigit = true :=
    List.all_eq_true.mpr (isDigits_toDigits n).2
  simp [numberLiteral, digits, digitsValue_toDigits, inRange]

end TripleTables.Sql.Lexer

namespace TripleTables.Sql

/-- The constant is one that a text can stand for. -/
def Literal.Spelled : Literal → Prop
  | .integer value => value.natAbs ≤ Lexer.maxInteger
  | .decimal digits => Lexer.IsDecimal digits.toList
  | .string _ | .boolean _ | .date _ | .time _ | .timestamp _ | .null => True

theorem Literal.spelled_numberLiteral {text : List Char} (isNumber : Lexer.IsNumber text) :
    (Lexer.numberLiteral text).Spelled := by
  unfold Lexer.numberLiteral
  split
  · rename_i inRange
    rw [Bool.and_eq_true, decide_eq_true_eq] at inRange
    simpa [Literal.Spelled] using inRange.2
  · rename_i noInteger
    rw [Literal.Spelled, String.toList_ofList]
    exact .unsigned isNumber (by rw [Lexer.numberLiteral, if_neg noInteger])

end TripleTables.Sql
