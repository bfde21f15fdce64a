import TripleTables.Proofs.Sql.Keyword

/-!
# Tokens of SQL

A statement is written as a list of tokens with one space between them.  This
module says how the lexical readers behave on such a text: each reads the token
that it is for and stops before the next one, and misses on other tokens.

Which tokens may go on an expression or a clause is said by one number, the rank
of a token.  A construct of some rank ends before every token of a lower rank, so
what may follow a construct is a condition on the rank of the next token.
-/

namespace TripleTables.Sql

open Reader Lexer

/-! ## Tokens -/

/-- Punctuation and operators. -/
inductive Mark where
  | openBracket
  | closeBracket
  | comma
  | dot
  | question
  | equal
  | notEqual
  | less
  | lessEqual
  | greater
  | greaterEqual
  | doubleAt
  | ampersand
  | bar
  | caret
  | plus
  | minus
  | doubleBar
  | star
  | slash
  | percent
deriving DecidableEq

/-- The mark as it is written. -/
def Mark.chars : Mark → List Char
  | .openBracket => ['(']
  | .closeBracket => [')']
  | .comma => [',']
  | .dot => ['.']
  | .question => ['?']
  | .equal => ['=']
  | .notEqual => ['<', '>']
  | .less => ['<']
  | .lessEqual => ['<', '=']
  | .greater => ['>']
  | .greaterEqual => ['>', '=']
  | .doubleAt => ['@', '@']
  | .ampersand => ['&']
  | .bar => ['|']
  | .caret => ['^']
  | .plus => ['+']
  | .minus => ['-']
  | .doubleBar => ['|', '|']
  | .star => ['*']
  | .slash => ['/']
  | .percent => ['%']

/-- The words with a meaning of their own. -/
inductive Keyword where
  | all
  | and
  | any
  | as
  | asc
  | between
  | by
  | case
  | cross
  | date
  | desc
  | distinct
  | else
  | end
  | exists
  | falseWord
  | from
  | full
  | group
  | having
  | in
  | inner
  | is
  | join
  | left
  | like
  | limit
  | not
  | null
  | offset
  | on
  | or
  | order
  | outer
  | right
  | select
  | some
  | then
  | time
  | timestamp
  | trueWord
  | when
  | where
deriving DecidableEq

namespace Keyword

/-- The keyword as it is written. -/
def text : Keyword → String
  | .all => "ALL"
  | .and => "AND"
  | .any => "ANY"
  | .as => "AS"
  | .asc => "ASC"
  | .between => "BETWEEN"
  | .by => "BY"
  | .case => "CASE"
  | .cross => "CROSS"
  | .date => "DATE"
  | .desc => "DESC"
  | .distinct => "DISTINCT"
  | .else => "ELSE"
  | .end => "END"
  | .exists => "EXISTS"
  | .falseWord => "FALSE"
  | .from => "FROM"
  | .full => "FULL"
  | .group => "GROUP"
  | .having => "HAVING"
  | .in => "IN"
  | .inner => "INNER"
  | .is => "IS"
  | .join => "JOIN"
  | .left => "LEFT"
  | .like => "LIKE"
  | .limit => "LIMIT"
  | .not => "NOT"
  | .null => "NULL"
  | .offset => "OFFSET"
  | .on => "ON"
  | .or => "OR"
  | .order => "ORDER"
  | .outer => "OUTER"
  | .right => "RIGHT"
  | .select => "SELECT"
  | .some => "SOME"
  | .then => "THEN"
  | .time => "TIME"
  | .timestamp => "TIMESTAMP"
  | .trueWord => "TRUE"
  | .when => "WHEN"
  | .where => "WHERE"

/-- All keywords. -/
def table : List Keyword :=
  [ .all, .and, .any, .as, .asc, .between, .by, .case, .cross, .date, .desc, .distinct, .else
  , .end, .exists, .falseWord, .from, .full, .group, .having, .in, .inner, .is, .join, .left
  , .like, .limit, .not, .null, .offset, .on, .or, .order, .outer, .right, .select, .some
  , .then, .time, .timestamp, .trueWord, .when, .where ]

theorem mem_table (word : Keyword) : word ∈ table := by
  cases word <;> decide

/-- Keywords differ in more than the case of their letters. -/
theorem eq_of_toLower {word other : Keyword}
    (same : word.text.toList.map Char.toLower = other.text.toList.map Char.toLower) :
    word = other := by
  have apart : ∀ first ∈ table, ∀ second ∈ table,
      first.text.toList.map Char.toLower = second.text.toList.map Char.toLower →
        first = second := by
    decide +kernel
  exact apart word (mem_table word) other (mem_table other) same

theorem isKeyword_text (word : Keyword) : isKeyword word.text = true := by
  have keywords : ∀ word ∈ table, isKeyword word.text = true := by
    decide +kernel
  exact keywords word (mem_table word)

theorem isUpper_of_mem (word : Keyword) : ∀ c ∈ word.text.toList, c.isUpper = true := by
  have isKeyword := word.isKeyword_text
  simp only [Lexer.isKeyword, Bool.and_eq_true] at isKeyword
  exact List.all_eq_true.mp isKeyword.1.2

end Keyword

/-- A token of a statement. -/
inductive Token where
  | mark (symbol : Mark)
  | keyword (word : Keyword)
  /-- An identifier, which is written in double quotes. -/
  | name (value : String)
  /-- A string, which is written in single quotes. -/
  | string (value : String)
  /-- A number, which is written as it is. -/
  | number (text : String)
  /-- The name of a function, which is written as it is. -/
  | function (word : String)

/-- The token as it is written. -/
def Token.chars : Token → List Char
  | .mark symbol => symbol.chars
  | .keyword word => word.text.toList
  | .name value => inQuotes '"' value
  | .string value => inQuotes '\'' value
  | .number text => text.toList
  | .function word => word.toList

/-- Tokens with one space between them. -/
def write (tokens : List Token) : List Char :=
  [' '].intercalate (tokens.map Token.chars)

/-- What follows a token before some others: the space, if there are any. -/
def gap : List Token → List Char
  | [] => []
  | token :: rest => ' ' :: write (token :: rest)

@[simp]
theorem write_nil : write [] = [] :=
  rfl

theorem write_cons (token : Token) (rest : List Token) :
    write (token :: rest) = token.chars ++ gap rest := by
  cases rest with
  | nil => simp [write, gap, List.intercalate]
  | cons next more => simp [write, gap, List.intercalate]

theorem eq_space_of_mem_gap {rest : List Token} : ∀ c ∈ (gap rest).head?, c = ' ' := by
  cases rest with
  | nil => simp [gap]
  | cons next more => simp [gap]

theorem endsLexeme_of_mem_gap {rest : List Token} : ∀ c ∈ (gap rest).head?, EndsLexeme c := by
  intro c first
  rw [eq_space_of_mem_gap c first]
  exact ⟨by decide, by decide, by decide⟩

/-- No blank stands before the tokens. -/
def Flush (tokens : List Token) : Prop :=
  (write tokens).dropWhile isSpace = write tokens

@[simp]
theorem flush_nil : Flush [] :=
  rfl

theorem dropWhile_gap {rest : List Token} (flush : Flush rest) :
    (gap rest).dropWhile isSpace = write rest := by
  cases rest with
  | nil => rfl
  | cons next more =>
      have space : isSpace ' ' = true := by decide
      rw [gap, List.dropWhile_cons_of_pos space]
      exact flush

/-- The character that a token starts with. -/
def Token.StartsWith (token : Token) (holds : Char → Prop) : Prop :=
  ∃ c more, token.chars = c :: more ∧ holds c

theorem flush_of_startsWith {token : Token} {rest : List Token}
    (starts : token.StartsWith fun c => isSpace c = false) : Flush (token :: rest) := by
  obtain ⟨c, more, chars, noSpace⟩ := starts
  rw [Flush, write_cons, chars, List.cons_append, List.dropWhile_cons_of_neg (by simp [noSpace])]

/-! ## Keywords -/

/-- Two texts are the same but for the case of ASCII letters. -/
def SameLetters (first second : List Char) : Prop :=
  first.map Char.toLower = second.map Char.toLower

theorem map_toUpper_of_sameLetters {first second : List Char} (same : SameLetters first second) :
    first.map Char.toUpper = second.map Char.toUpper := by
  have upper : ∀ text : List Char, text.map Char.toUpper =
      (text.map Char.toLower).map Char.toUpper := by
    intro text
    simp only [List.map_map, Function.comp_def, Char.toUpper_toLower_eq_toUpper]
  rw [upper first, upper second, same]

theorem afterWord?_of_sameLetters {expected found : List Char} (same : SameLetters found expected)
    (rest : List Char) : afterWord? expected (found ++ rest) = some rest := by
  induction expected generalizing found with
  | nil =>
      have none : found = [] := by simpa [SameLetters] using same
      subst found
      rfl
  | cons a expected ih =>
      cases found with
      | nil => simp [SameLetters] at same
      | cons c found =>
          have heads : c.toLower = a.toLower ∧ SameLetters found expected := by
            simpa [SameLetters] using same
          simp [afterWord?, heads.1, ih heads.2]

/-- Of a word that is another one, a letter is left. -/
theorem afterWord?_of_not_sameLetters {expected found rest left : List Char}
    (letters : ∀ a ∈ expected, a.isUpper = true) (inside : ∀ c ∈ found, isWordChar c = true)
    (stop : ∀ c ∈ rest.head?, c = ' ') (different : ¬ SameLetters found expected)
    (read : afterWord? expected (found ++ rest) = some left) :
    left.head?.any isWordChar = true := by
  induction expected generalizing found with
  | nil =>
      cases found with
      | nil => exact absurd rfl different
      | cons c found =>
          cases read
          simpa using inside c (by simp)
  | cons a expected ih =>
      cases found with
      | nil =>
          cases rest with
          | nil => simp [afterWord?] at read
          | cons c rest =>
              -- A letter of a keyword is no space.
              have space := stop c rfl
              subst c
              have other : ' '.toLower ≠ a.toLower :=
                toLower_ne_toLower (by decide) (letters a (by simp))
              simp only [List.nil_append, afterWord?, beq_eq_false_iff_ne.mpr other,
                Bool.false_eq_true, if_false] at read
              cases read
      | cons c found =>
          have same : c.toLower = a.toLower := by
            by_contra other
            simp [afterWord?, other] at read
          simp only [List.cons_append, afterWord?, same, beq_self_eq_true, if_true] at read
          apply ih (fun a member => letters a (by simp [member]))
            (fun c member => inside c (by simp [member])) _ read
          intro others
          exact different (by simpa [SameLetters, same] using others)

theorem isSpace_eq_false_of_isWordStart {c : Char} (start : isWordStart c = true) :
    isSpace c = false := by
  by_contra space
  simp only [isSpace, Bool.not_eq_false, Bool.or_eq_true, beq_iff_eq] at space
  rcases space with ((rfl | rfl) | rfl) | rfl <;> exact absurd start (by decide)

theorem Lexer.IsWord.dropWhile_isSpace {found : List Char} (isWord : IsWord found)
    (rest : List Char) :
    (found ++ rest).dropWhile isSpace = found ++ rest := by
  obtain ⟨c, more, rfl, start, _⟩ := isWord
  simp [isSpace_eq_false_of_isWordStart start]

section Keywords

variable (word : Keyword) {found rest : List Char}

/-- A keyword is read from a word with its letters. -/
theorem keyword_of_sameLetters (isWord : IsWord found) (stop : ∀ c ∈ rest.head?, c = ' ')
    (same : SameLetters found word.text.toList) :
    keyword word.text (found ++ rest) = .ok () (rest.dropWhile isSpace) := by
  have ended : rest.head?.any isWordChar = false := by
    cases rest with
    | nil => rfl
    | cons c rest =>
        rw [stop c rfl]
        rfl
  rw [keyword_apply word.isKeyword_text, isWord.dropWhile_isSpace,
    afterWord?_of_sameLetters same]
  simp [ended]

/-- A keyword is not read from any other word. -/
theorem keyword_misses_of_not_sameLetters (isWord : IsWord found)
    (stop : ∀ c ∈ rest.head?, c = ' ') (different : ¬ SameLetters found word.text.toList) :
    Misses (keyword word.text) (found ++ rest) := by
  have inside : ∀ c ∈ found, isWordChar c = true := by
    obtain ⟨first, more, rfl, start, inside⟩ := isWord
    simpa using ⟨isWordChar_of_isWordStart start, inside⟩
  have whole : ¬ isTorn (found ++ rest) = true := by
    intro torn
    have outside : ∀ c ∈ rest.head?, isWordChar c = false := by
      intro c first
      rw [stop c first]
      decide
    have sign := head?_dropWhile_of_isTorn torn
    rw [dropWhile_run inside outside] at sign
    exact absurd (stop _ sign) (by decide)
  rw [Misses, keyword_apply word.isKeyword_text, isWord.dropWhile_isSpace]
  cases read : afterWord? word.text.toList (found ++ rest) with
  | none => exact ⟨found ++ rest, by simp [whole]⟩
  | some left =>
      have goesOn := afterWord?_of_not_sameLetters word.isUpper_of_mem inside stop different read
      exact ⟨left, by simp [goesOn]⟩

/-- A keyword is not read from what starts with no letter. -/
theorem keyword_misses_of_not_isAlpha {c : Char} (noSpace : isSpace c = false)
    (noLetter : c.isAlpha = false) : Misses (keyword word.text) (c :: rest) := by
  have flush : (c :: rest).dropWhile isSpace = c :: rest := by simp [noSpace]
  obtain ⟨a, more, letters⟩ : ∃ a more, word.text.toList = a :: more := by
    cases word <;> exact ⟨_, _, rfl⟩
  have upper := word.isUpper_of_mem a (by simp [letters])
  have other := toLower_ne_toLower noLetter upper
  have whole : ¬ isTorn (c :: rest) = true := by
    intro torn
    obtain ⟨l, i, more, same, isL, _⟩ := exists_of_isTorn torn
    cases same
    rw [isAlpha_of_toLower_eq rfl isL] at noLetter
    cases noLetter
  exact ⟨c :: rest, by
    simp [keyword_apply word.isKeyword_text, flush, letters, afterWord?, other, whole]⟩

end Keywords

/-! ## What may follow -/

/-- How tightly a mark is bound to what stands before it. -/
def Mark.rank : Mark → Nat
  | .closeBracket => 0
  | .comma => 8
  | .equal | .notEqual | .less | .lessEqual | .greater | .greaterEqual | .doubleAt => 18
  | .ampersand | .bar | .caret => 19
  | .plus | .minus | .doubleBar => 20
  | .star | .slash | .percent => 21
  | .dot => 23
  | .openBracket | .question => 24

/-- How tightly a keyword is bound to what stands before it.  The keywords of
the clauses come first, from the last clause on; then the keywords inside a
clause, the keywords of CASE, and the operators by their level. -/
def Keyword.rank : Keyword → Nat
  | .offset => 1
  | .limit => 2
  | .order => 3
  | .having => 4
  | .group => 5
  | .where => 6
  | .from => 7
  | .cross | .inner | .left | .right | .full | .join => 9
  | .on => 10
  | .as | .asc | .desc => 11
  | .end => 12
  | .else => 13
  | .when | .then => 14
  | .or => 15
  | .and => 16
  | .is | .not | .like | .between | .in => 18
  | .all | .any | .by | .case | .date | .distinct | .exists | .falseWord | .null | .outer | .select
  | .some | .time | .timestamp | .trueWord => 24

/-- How tightly a token is bound to what stands before it. -/
def Token.rank : Token → Nat
  | .mark symbol => symbol.rank
  | .keyword word => word.rank
  | .name _ | .string _ | .number _ | .function _ => 24

/-- A construct of the given rank ends before the tokens. -/
def Stops (rank : Nat) (tokens : List Token) : Prop :=
  Flush tokens ∧ ∀ token ∈ tokens.head?, token.rank < rank

@[simp]
theorem stops_nil (rank : Nat) : Stops rank [] := by
  simp [Stops]

@[simp]
theorem stops_cons {rank : Nat} {token : Token} {rest : List Token} :
    Stops rank (token :: rest) ↔ Flush (token :: rest) ∧ token.rank < rank := by
  simp [Stops]

theorem Stops.mono {rank higher : Nat} {tokens : List Token} (stops : Stops rank tokens)
    (le : rank ≤ higher) : Stops higher tokens :=
  ⟨stops.1, fun token first => Nat.lt_of_lt_of_le (stops.2 token first) le⟩

theorem Token.rank_lt (token : Token) : token.rank < 25 := by
  cases token with
  | mark symbol => cases symbol <;> decide
  | keyword word => cases word <;> decide
  | name _ | string _ | number _ | function _ => exact Nat.lt_add_one 24

/-- A construct of the highest rank ends before everything. -/
theorem stops_of_flush {tokens : List Token} (flush : Flush tokens) : Stops 25 tokens :=
  ⟨flush, fun token _ => token.rank_lt⟩

/-- The character starts a mark. -/
def IsMarkStart (c : Char) : Prop :=
  isSpace c = false ∧ isWordStart c = false ∧ c.isDigit = false ∧ c ≠ '"' ∧ c ≠ '`' ∧ c ≠ '\'' ∧
    c ≠ '\x7b'

theorem Mark.startsWith (symbol : Mark) : (Token.mark symbol).StartsWith IsMarkStart := by
  cases symbol <;> exact ⟨_, _, rfl, by unfold IsMarkStart; decide⟩

theorem Keyword.isWord (word : Keyword) : IsWord word.text.toList := by
  obtain ⟨first, more, letters⟩ : ∃ first more, word.text.toList = first :: more := by
    cases word <;> exact ⟨_, _, rfl⟩
  have upper : ∀ c ∈ first :: more, c.isUpper = true := by
    rw [← letters]
    exact word.isUpper_of_mem
  refine ⟨first, more, letters, ?_, ?_⟩
  · simp [isWordStart, Char.isAlpha, upper first (by simp)]
  · intro c member
    simp [isWordChar, Char.isAlphanum, Char.isAlpha, upper c (by simp [member])]

theorem isAlpha_eq_false_of_not_isWordStart {c : Char} (noWord : isWordStart c = false) :
    c.isAlpha = false := by
  simp only [isWordStart, Bool.or_eq_false_iff] at noWord
  exact noWord.1

theorem Token.startsWith_of_isWord {token : Token} (isWord : IsWord token.chars) :
    token.StartsWith fun c => isWordStart c = true := by
  obtain ⟨c, more, chars, start, _⟩ := isWord
  exact ⟨c, more, chars, start⟩

@[simp]
theorem flush_mark (symbol : Mark) (rest : List Token) : Flush (.mark symbol :: rest) := by
  obtain ⟨c, more, chars, noSpace, _⟩ := symbol.startsWith
  exact flush_of_startsWith ⟨c, more, chars, noSpace⟩

@[simp]
theorem flush_keyword (word : Keyword) (rest : List Token) : Flush (.keyword word :: rest) := by
  obtain ⟨c, more, chars, start, _⟩ := word.isWord
  exact flush_of_startsWith ⟨c, more, chars, isSpace_eq_false_of_isWordStart start⟩

@[simp]
theorem flush_name (value : String) (rest : List Token) : Flush (.name value :: rest) :=
  flush_of_startsWith ⟨'"', _, rfl, by decide⟩

@[simp]
theorem flush_string (value : String) (rest : List Token) : Flush (.string value :: rest) :=
  flush_of_startsWith ⟨'\'', _, rfl, by decide⟩

/-- What ends a construct is a mark or a keyword. -/
theorem Stops.cases {rank : Nat} {tokens : List Token} (stops : Stops rank tokens)
    (bounded : rank ≤ 24) :
    tokens = [] ∨ (∃ symbol rest, tokens = .mark symbol :: rest ∧ symbol.rank < rank) ∨
      ∃ word rest, tokens = .keyword word :: rest ∧ word.rank < rank := by
  cases tokens with
  | nil => exact .inl rfl
  | cons token rest =>
      have lower := (stops_cons.mp stops).2
      cases token with
      | mark symbol => exact .inr (.inl ⟨symbol, rest, rfl, lower⟩)
      | keyword word => exact .inr (.inr ⟨word, rest, rfl, lower⟩)
      | name _ | string _ | number _ | function _ =>
          simp only [Token.rank] at lower
          omega

/-! ## Reading tokens -/

section Tokens

variable {α : Type} {p : Lexer α} {token : Token} {rest : List Token} {value : α}

/-- A token is read by a reader of its characters. -/
theorem token_write (flush : Flush (token :: rest)) (flushRest : Flush rest)
    (read : p (token.chars ++ gap rest) = .ok value (gap rest)) :
    Lexer.token p (write (token :: rest)) = .ok value (write rest) := by
  rw [token_apply, flush, write_cons, read]
  simp [dropWhile_gap flushRest]

theorem token_misses {tokens : List Token} (flush : Flush tokens)
    (missed : Misses p (write tokens)) : Misses (Lexer.token p) (write tokens) := by
  obtain ⟨error, missed⟩ := missed
  exact ⟨error, by rw [token_apply, flush, missed]⟩

end Tokens

theorem symbol_write {symbol : Mark} {c : Char} (single : symbol.chars = [c]) {rest : List Token}
    (flush : Flush rest) : Lexer.symbol c (write (.mark symbol :: rest)) = .ok () (write rest) := by
  have read : Lexer.token (char c) (write (.mark symbol :: rest)) = .ok c (write rest) := by
    apply token_write (flush_mark symbol rest) flush
    simp [Token.chars, single, char, satisfy]
  simp [Lexer.symbol, bind_apply, read]

theorem symbol_misses {c : Char} {tokens : List Token} (flush : Flush tokens)
    (other : (write tokens).head? ≠ some c) : Misses (Lexer.symbol c) (write tokens) := by
  apply Misses.bind
  apply token_misses flush
  cases written : write tokens with
  | nil => exact ⟨_, rfl⟩
  | cons d more =>
      have different : d ≠ c := by simpa [written] using other
      exact ⟨d :: more, by simp [char, satisfy, different]⟩

theorem keyword_write (word : Keyword) {rest : List Token} (flush : Flush rest) :
    keyword word.text (write (.keyword word :: rest)) = .ok () (write rest) := by
  rw [write_cons]
  exact (keyword_of_sameLetters word word.isWord eq_space_of_mem_gap rfl).trans
    (by rw [dropWhile_gap flush])

theorem keyword_misses_keyword {word other : Keyword} (different : other ≠ word)
    (rest : List Token) : Misses (keyword word.text) (write (.keyword other :: rest)) := by
  rw [write_cons]
  apply keyword_misses_of_not_sameLetters word other.isWord eq_space_of_mem_gap
  intro same
  exact different (Keyword.eq_of_toLower same)

theorem keyword_misses_of_startsWith {word : Keyword} {token : Token} {rest : List Token}
    (starts : token.StartsWith fun c => isSpace c = false ∧ isWordStart c = false) :
    Misses (keyword word.text) (write (token :: rest)) := by
  obtain ⟨c, more, chars, noSpace, noWord⟩ := starts
  rw [write_cons, chars]
  exact keyword_misses_of_not_isAlpha word noSpace (isAlpha_eq_false_of_not_isWordStart noWord)

theorem keyword_misses_nil (word : Keyword) : Misses (keyword word.text) [] := by
  cases word <;> exact ⟨_, rfl⟩

/-- A keyword is not read where a construct of its rank ends. -/
theorem keyword_misses_of_stops (word : Keyword) {tokens : List Token}
    (stops : Stops word.rank tokens) : Misses (keyword word.text) (write tokens) := by
  have bounded : word.rank ≤ 24 := by cases word <;> decide
  rcases stops.cases bounded with rfl | ⟨symbol, rest, rfl, _⟩ | ⟨other, rest, rfl, lower⟩
  · exact keyword_misses_nil word
  · obtain ⟨c, more, chars, noSpace, noWord, _⟩ := symbol.startsWith
    exact keyword_misses_of_startsWith ⟨c, more, chars, noSpace, noWord⟩
  · apply keyword_misses_keyword
    rintro rfl
    exact Nat.lt_irrefl _ lower

theorem symbol_misses_mark {symbol : Mark} {c : Char} (other : symbol.chars.head? ≠ some c)
    (rest : List Token) : Misses (Lexer.symbol c) (write (.mark symbol :: rest)) := by
  apply symbol_misses (flush_mark symbol rest)
  obtain ⟨first, more, chars, _⟩ := symbol.startsWith
  rw [Token.chars] at chars
  simpa [write_cons, Token.chars, chars] using other

theorem symbol_misses_of_isWord {token : Token} {c : Char} (isWord : IsWord token.chars)
    (noWord : isWordStart c = false) (rest : List Token) :
    Misses (Lexer.symbol c) (write (token :: rest)) := by
  obtain ⟨first, more, chars, start⟩ := Token.startsWith_of_isWord isWord
  apply symbol_misses
  · exact flush_of_startsWith ⟨first, more, chars, isSpace_eq_false_of_isWordStart start⟩
  · have different : first ≠ c := by
      rintro rfl
      simp [noWord] at start
    simpa [write_cons, chars] using different

/-! ### Names, strings, functions and numbers -/

theorem quoted_misses {quote c : Char} (different : c ≠ quote) (more : List Char) :
    Misses (quoted quote) (c :: more) :=
  ⟨c :: more, by simp [quoted, different]⟩

theorem word_misses {condition : List Char → Bool} {c : Char} (noWord : isWordStart c = false)
    (more : List Char) : Misses (word condition) (c :: more) :=
  ⟨c :: more, by simp [word, noWord]⟩

theorem head?_gap_ne {c : Char} (noSpace : c ≠ ' ') (rest : List Token) :
    (gap rest).head? ≠ some c := by
  intro first
  exact noSpace (eq_space_of_mem_gap c first)

theorem identifier_write (value : String) {rest : List Token} (flush : Flush rest) :
    identifier (write (.name value :: rest)) = .ok value (write rest) := by
  apply token_write (flush_name value rest) flush
  have quotedRead : quoted '"' (inQuotes '"' value ++ gap rest) = .ok value (gap rest) :=
    quoted_inQuotes (head?_gap_ne (by decide) rest) value
  exact (firstOf_of_misses (word_misses (by decide) _) _ _).trans (firstOf_of_ok quotedRead _)

theorem string_write (value : String) {rest : List Token} (flush : Flush rest) :
    Lexer.string (write (.string value :: rest)) = .ok value (write rest) :=
  token_write (flush_string value rest) flush
    (quoted_inQuotes (head?_gap_ne (by decide) rest) value)

theorem string_misses {tokens : List Token} (flush : Flush tokens)
    (other : (write tokens).head? ≠ some '\'') : Misses Lexer.string (write tokens) := by
  apply token_misses flush
  cases written : write tokens with
  | nil => exact ⟨_, rfl⟩
  | cons c more => exact quoted_misses (by simpa [written] using other) more

section Words

variable {token : Token} (isWord : IsWord token.chars) {rest : List Token}

include isWord

theorem flush_of_isWord : Flush (token :: rest) := by
  obtain ⟨c, more, chars, start⟩ := Token.startsWith_of_isWord isWord
  exact flush_of_startsWith ⟨c, more, chars, isSpace_eq_false_of_isWordStart start⟩

theorem word_gap (condition : List Char → Bool) :
    Lexer.word condition (token.chars ++ gap rest) =
      if condition token.chars then .ok (String.ofList token.chars) (gap rest)
      else .miss (token.chars ++ gap rest) :=
  word_append isWord fun c first => (endsLexeme_of_mem_gap c first).2.2

theorem word_write {condition : List Char → Bool} (accepted : condition token.chars = true)
    (flush : Flush rest) :
    Lexer.token (Lexer.word condition) (write (token :: rest)) =
      .ok (String.ofList token.chars) (write rest) := by
  apply token_write (flush_of_isWord isWord) flush
  rw [word_gap isWord, accepted, if_pos rfl]

/-- A word without quotes is an identifier unless it is reserved. -/
theorem identifier_of_not_isReserved (free : isReserved token.chars = false)
    (flush : Flush rest) :
    identifier (write (token :: rest)) = .ok (String.ofList token.chars) (write rest) := by
  apply token_write (flush_of_isWord isWord) flush
  apply firstOf_of_ok
  rw [word_gap isWord, free, Bool.not_false, if_pos rfl]

theorem identifier_misses_of_isReserved (reserved : isReserved token.chars = true) :
    Misses identifier (write (token :: rest)) := by
  apply token_misses (flush_of_isWord isWord)
  have missed : Misses (Lexer.word fun found => !isReserved found) (write (token :: rest)) := by
    rw [write_cons]
    exact ⟨token.chars ++ gap rest, by simp [word_gap isWord, reserved]⟩
  apply misses_firstOf missed
  obtain ⟨c, more, chars, start⟩ := Token.startsWith_of_isWord isWord
  have noQuote : ∀ quote, isWordStart quote = false → c ≠ quote := by
    rintro quote noWord rfl
    simp [noWord] at start
  rw [write_cons, chars]
  simp only [List.mem_cons, List.not_mem_nil, or_false, forall_eq_or_imp, forall_eq]
  exact ⟨quoted_misses (noQuote '"' (by decide)) _, quoted_misses (noQuote '`' (by decide)) _⟩

end Words

theorem identifier_misses_mark (symbol : Mark) (rest : List Token) :
    Misses identifier (write (.mark symbol :: rest)) := by
  apply token_misses (flush_mark symbol rest)
  obtain ⟨c, more, chars, noSpace, noWord, _, noQuote, noBackquote, _⟩ := symbol.startsWith
  rw [write_cons, chars]
  apply misses_firstOf (word_misses noWord _)
  simp only [List.mem_cons, List.not_mem_nil, or_false, forall_eq_or_imp, forall_eq]
  exact ⟨quoted_misses noQuote _, quoted_misses noBackquote _⟩

/-- Neither a mark nor a reserved keyword is an identifier. -/
theorem identifier_misses_of_stops {rank : Nat} {tokens : List Token} (stops : Stops rank tokens)
    (bounded : rank ≤ 24) : Misses identifier (write tokens) := by
  have reserved : ∀ word ∈ Keyword.table, word.rank < 24 → isReserved word.text.toList = true := by
    decide +kernel
  rcases stops.cases bounded with rfl | ⟨symbol, rest, rfl, _⟩ | ⟨word, rest, rfl, lower⟩
  · exact ⟨[], rfl⟩
  · exact identifier_misses_mark symbol rest
  · exact @identifier_misses_of_isReserved (.keyword word) word.isWord rest
      (reserved word word.mem_table (by omega))

/-- The keywords that may also name a function. -/
def Keyword.callable : List Keyword :=
  [.date, .left, .right, .time, .timestamp]

theorem Keyword.isFunctionName_eq_false {word : Keyword} (noName : word ∉ callable) :
    Expression.isFunctionName word.text.toList = false := by
  have others : ∀ word ∈ table, word ∉ callable →
      Expression.isFunctionName word.text.toList = false := by
    decide +kernel
  exact others word word.mem_table noName

theorem Keyword.isReserved_eq_true {word : Keyword} (noName : word ∉ callable) :
    isReserved word.text.toList = true := by
  have other := isFunctionName_eq_false noName
  simp only [Expression.isFunctionName, Bool.or_eq_false_iff] at other
  simpa using other.1.1

/-- Which words name functions does not depend on the case of letters. -/
theorem isReserved_of_sameLetters {first second : List Char} (same : SameLetters first second) :
    isReserved first = isReserved second := by
  simp only [isReserved, sameWord, map_toUpper_of_sameLetters same]

theorem isFunctionName_of_sameLetters {first second : List Char} (same : SameLetters first second) :
    Expression.isFunctionName first = Expression.isFunctionName second := by
  simp only [Expression.isFunctionName, isReserved_of_sameLetters same, sameWord,
    map_toUpper_of_sameLetters same]

/-- A keyword that names no function is not read from the name of a function. -/
theorem keyword_misses_function {word : Keyword} {name : String} {rest : List Token}
    (isWord : IsWord name.toList) (isName : Expression.isFunctionName name.toList = true)
    (noName : word ∉ Keyword.callable) :
    Misses (keyword word.text) (write (.function name :: rest)) := by
  rw [write_cons]
  apply keyword_misses_of_not_sameLetters word isWord eq_space_of_mem_gap
  intro same
  rw [isFunctionName_of_sameLetters same, Keyword.isFunctionName_eq_false noName] at isName
  contradiction

/-- From the name of a function a keyword is read as a whole, if at all. -/
theorem keyword_function (word : Keyword) {name : String} {rest : List Token}
    (isWord : IsWord name.toList) (flush : Flush rest) :
    keyword word.text (write (.function name :: rest)) = .ok () (write rest) ∨
      Misses (keyword word.text) (write (.function name :: rest)) := by
  rw [write_cons]
  by_cases same : SameLetters name.toList word.text.toList
  · left
    exact (keyword_of_sameLetters word isWord eq_space_of_mem_gap same).trans
      (by rw [dropWhile_gap flush])
  · right
    exact keyword_misses_of_not_sameLetters word isWord eq_space_of_mem_gap same

theorem number_write {text : String} (isNumber : IsNumber text.toList) {rest : List Token}
    (flush : Flush rest) :
    number (write (.number text :: rest)) = .ok text.toList (write rest) := by
  rw [write_cons]
  exact (number_append isNumber endsLexeme_of_mem_gap).trans (by rw [dropWhile_gap flush])

theorem number_misses {tokens : List Token} (flush : Flush tokens)
    (other : ∀ c ∈ (write tokens).head?, c.isDigit = false ∧ c ≠ '.') :
    Misses number (write tokens) := by
  apply token_misses flush
  have none : takeMantissa (write tokens) = none := by
    cases written : write tokens with
    | nil => rfl
    | cons c more =>
        obtain ⟨noDigit, noPoint⟩ := other c (by simp [written])
        simp [takeMantissa, takeDigits, noDigit, noPoint]
  exact ⟨write tokens, by simp [none]⟩

theorem flush_number {text : String} (isNumber : IsNumber text.toList) (rest : List Token) :
    Flush (.number text :: rest) := by
  obtain ⟨c, more, chars, isFirst⟩ := isNumber.head
  exact flush_of_startsWith ⟨c, more, chars, isSpace_eq_false_of_isDigit isFirst⟩

theorem toList_toString (n : Nat) : (toString n).toList = Nat.toDigits 10 n := by
  simp [Nat.toString_eq_repr, Nat.repr]

theorem toList_toString_natCast (n : Nat) : (toString (n : Int)).toList = Nat.toDigits 10 n :=
  toList_toString n

theorem toList_toString_negSucc (n : Nat) :
    (toString (Int.negSucc n)).toList = '-' :: Nat.toDigits 10 (n + 1) := by
  change ("-" ++ toString (n + 1)).toList = _
  rw [String.toList_append, toList_toString]
  rfl

/-- Digits are read as the number of rows that they stand for. -/
theorem rowCount_write {rows : Nat} (inRange : rows ≤ maxRows) {rest : List Token}
    (flush : Flush rest) :
    rowCount (write (.number (toString rows) :: rest)) = .ok rows (write rest) := by
  have isDigits := isDigits_toDigits rows
  have noDigit : ∀ c ∈ (gap rest).head?, c.isDigit = false :=
    fun c first => (endsLexeme_of_mem_gap c first).1
  have isNumber : IsNumber (toString rows).toList := by
    rw [toList_toString]
    exact isDigits.isNumber
  have read : Lexer.token digits (write (.number (toString rows) :: rest)) =
      .ok (Nat.toDigits 10 rows) (write rest) := by
    apply token_write (flush_number isNumber rest) flush
    rw [Token.chars, toList_toString, digits, takeDigits_append isDigits.2 noDigit]
    cases found : Nat.toDigits 10 rows with
    | nil => exact absurd found isDigits.1
    | cons c more => rfl
  unfold rowCount
  rw [read]
  simp [digitsValue_toDigits, inRange]

end TripleTables.Sql
