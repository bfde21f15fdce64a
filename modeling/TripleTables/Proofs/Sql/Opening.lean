import TripleTables.Proofs.Sql.Phrase
import TripleTables.Proofs.Sql.Regular

/-!
# Operators, names and first tokens

Operators and names are read back, and operators are not read where an
expression of their level ends.  What an expression starts with tells which of
the readers that are tried on it miss.
-/

namespace TripleTables.Sql

open Reader Lexer

/-! ## Operators -/

namespace Expression

/-- The reader of the operators of a level. -/
def operatorAt : Nat → Lexer BinaryOp
  | 0 => do keyword "OR"; return .or
  | 1 => do keyword "AND"; return .and
  | 3 => comparisonOperator
  | 4 => bitwiseOperator
  | 5 => additiveOperator
  | 6 => multiplicativeOperator
  | _ => Lexer.fail

theorem reads_token {p : Lexer BinaryOp} {op : BinaryOp} {symbol : Mark}
    (isMark : op.token = .mark symbol)
    (read : ∀ rest, p (symbol.chars ++ gap rest) = .ok op (gap rest)) :
    Reads (Lexer.token p) 25 [op.token] op := by
  rw [isMark]
  exact ⟨fun rest stops => token_write (flush_mark symbol rest) stops.1 (read rest)⟩

/-- Every operator is read by the reader of its level. -/
theorem reads_operatorAt (op : BinaryOp) : Reads (operatorAt op.level) 25 [op.token] op := by
  cases op with
  | or => exact .keyword .or (.pure BinaryOp.or) (.nil (Nat.le_refl _))
  | and => exact .keyword .and (.pure BinaryOp.and) (.nil (Nat.le_refl _))
  | _ => exact reads_token rfl fun rest => by cases rest <;> rfl

/-- The text misses on what starts with a letter. -/
theorem operator_misses_word {first : String × BinaryOp} {others : List (String × BinaryOp)}
    (noLetter : ∀ entry ∈ first :: others,
      entry.1.toList.head?.any (fun c => !isWordStart c) = true)
    (word : Keyword) (rest : List Token) :
    Misses (operator first others) (write (.keyword word :: rest)) := by
  have one : ∀ entry ∈ first :: others,
      Misses (do Lexer.text entry.1; return entry.2 : Lexer BinaryOp)
        (write (.keyword word :: rest)) := by
    intro entry member
    apply Misses.bind
    obtain ⟨c, more, chars, start, _⟩ := word.isWord
    have different := noLetter entry member
    cases letters : entry.1.toList with
    | nil => simp [letters] at different
    | cons a expected =>
        have other : c ≠ a := by
          rintro rfl
          simp [letters, start] at different
        refine ⟨write (.keyword word :: rest), ?_⟩
        simp [Lexer.text, letters, write_cons, Token.chars, chars, afterText?, other]
  apply token_misses (flush_keyword word rest)
  apply misses_firstOf (one first (by simp))
  intro choice member
  obtain ⟨entry, inOthers, rfl⟩ := List.mem_map.mp member
  exact one entry (by simp [inOthers])

theorem bitwiseOperator_misses_word (word : Keyword) (rest : List Token) :
    Misses bitwiseOperator (write (.keyword word :: rest)) := by
  apply token_misses (flush_keyword word rest)
  obtain ⟨c, more, chars, start, _⟩ := word.isWord
  have one : ∀ symbol, isWordStart symbol = false →
      Misses (char symbol) (write (.keyword word :: rest)) := by
    intro symbol noLetter
    have other : c ≠ symbol := by
      rintro rfl
      simp [noLetter] at start
    refine ⟨write (.keyword word :: rest), ?_⟩
    simp [char, satisfy, write_cons, Token.chars, chars, other]
  apply misses_firstOf ((one '&' (by decide)).bind _)
  simp only [List.mem_cons, List.not_mem_nil, or_false, forall_eq_or_imp, forall_eq]
  exact ⟨(one '|' (by decide)).bind _, (one '^' (by decide)).bind _⟩

/-- No operator that is read from marks is read from a word. -/
theorem operatorAt_misses_word {level : Nat} (marked : 3 ≤ level) (word : Keyword)
    (rest : List Token) : Misses (operatorAt level) (write (.keyword word :: rest)) := by
  unfold operatorAt
  split
  · contradiction
  · contradiction
  · exact operator_misses_word (by decide) word rest
  · exact bitwiseOperator_misses_word word rest
  · exact operator_misses_word (by decide) word rest
  · exact operator_misses_word (by decide) word rest
  · exact ⟨_, rfl⟩

/-- No mark of a lower rank is read as an operator. -/
theorem operatorAt_misses_mark {level : Nat} {symbol : Mark} (lower : symbol.rank < 15 + level)
    (rest : List Token) : Misses (operatorAt level) (write (.mark symbol :: rest)) := by
  obtain ⟨c, more, chars, noSpace, noLetter, _⟩ := symbol.startsWith
  have noWord : ∀ word : Keyword, Misses (keyword word.text) (write (.mark symbol :: rest)) :=
    fun word => keyword_misses_of_startsWith ⟨c, more, chars, noSpace, noLetter⟩
  unfold operatorAt
  split
  · exact (noWord .or).bind _
  · exact (noWord .and).bind _
  all_goals first
    | exact ⟨_, rfl⟩
    | cases symbol <;> first
        | exact absurd lower (by decide)
        | cases rest <;> exact ⟨_, rfl⟩

/-- No operator of a level is read where an expression of the level ends. -/
theorem avoids_operatorAt {level : Nat} (bounded : level ≤ 6) :
    Avoids (operatorAt level) (15 + level) [] := by
  constructor
  intro rest stops
  rcases stops.cases (by omega) with rfl | ⟨symbol, more, rfl, lower⟩ | ⟨word, more, rfl, lower⟩
  · unfold operatorAt
    split <;> exact ⟨_, rfl⟩
  · exact operatorAt_misses_mark lower more
  · rcases level with _ | _ | _ | level
    · exact (keyword_misses_of_stops .or stops).bind _
    · exact (keyword_misses_of_stops .and stops).bind _
    · exact ⟨_, rfl⟩
    · exact operatorAt_misses_word (by omega) word more

end Expression

theorem BinaryOp.separates (op : BinaryOp) : op.token.Separates (16 + op.level) := by
  cases op <;> first
    | exact Token.separates_mark (by decide)
    | exact Token.separates_keyword (by decide)

/-! ## The first token of an expression -/

/-- The keywords that an expression may start with. -/
def Keyword.opening : List Keyword :=
  [.date, .time, .timestamp, .trueWord, .falseWord, .null, .case, .exists, .not]

/-- The token may be the first of an expression. -/
def Token.Opens : Token → Prop
  | .mark symbol => symbol ∈ [Mark.openBracket, .question, .plus, .minus]
  | .keyword word => word ∈ Keyword.opening
  | .name _ | .string _ => True
  | .number text => ∃ c more, text.toList = c :: more ∧ (c.isDigit = true ∨ c = '.' ∨ c = '-')
  | .function word => IsWord word.toList ∧ Expression.isFunctionName word.toList = true

/-- The character starts a number, or it is the sign before one. -/
theorem isWordStart_eq_false_of_isDigit {c : Char}
    (isFirst : c.isDigit = true ∨ c = '.' ∨ c = '-') : isWordStart c = false := by
  rcases isFirst with isDigit | rfl | rfl
  · have noLetter := isAlpha_eq_false_of_isDigit isDigit
    have noScore : c ≠ '_' := by
      rintro rfl
      exact absurd isDigit (by decide)
    simp [isWordStart, noLetter, noScore]
  · decide
  · decide

section Opens

variable {token : Token} (opens : token.Opens) (rest : List Token)

include opens

/-- The first token of an expression is a word, a name in quotes, or it starts
with a character of its own kind. -/
theorem Token.Opens.cases :
    (∃ word ∈ Keyword.opening, token = .keyword word) ∨
      (∃ word, token = .function word ∧ IsWord word.toList ∧
        Expression.isFunctionName word.toList = true) ∨
      (∃ value, token = .name value) ∨
      token.StartsWith fun c =>
        isSpace c = false ∧ isWordStart c = false ∧ c ≠ '*' ∧ c ≠ '"' ∧ c ≠ '`' := by
  cases token with
  | mark symbol =>
      have apart : ∀ symbol ∈ [Mark.openBracket, .question, .plus, .minus],
          symbol.chars.head? ≠ some '*' := by
        decide
      obtain ⟨c, more, chars, noSpace, noLetter, _, noQuote, noBackquote, _⟩ := symbol.startsWith
      have noStar := apart symbol opens
      rw [show symbol.chars = c :: more from chars] at noStar
      exact .inr (.inr (.inr
        ⟨c, more, chars, noSpace, noLetter, by simpa using noStar, noQuote, noBackquote⟩))
  | keyword word => exact .inl ⟨word, opens, rfl⟩
  | name value => exact .inr (.inr (.inl ⟨value, rfl⟩))
  | string value => exact .inr (.inr (.inr ⟨'\'', _, rfl, by decide⟩))
  | number text =>
      obtain ⟨c, more, chars, isFirst⟩ := opens
      have noSpace : isSpace c = false := by
        rcases isFirst with isDigit | rfl | rfl
        · exact isSpace_eq_false_of_isDigit (.inl isDigit)
        · decide
        · decide
      have other : ∀ d : Char, d.isDigit = false → d ≠ '.' → d ≠ '-' → c ≠ d := by
        rintro d noDigit noPoint noSign rfl
        simp [noDigit, noPoint, noSign] at isFirst
      exact .inr (.inr (.inr ⟨c, more, chars, noSpace, isWordStart_eq_false_of_isDigit isFirst,
        other '*' (by decide) (by decide) (by decide),
        other '"' (by decide) (by decide) (by decide),
        other '`' (by decide) (by decide) (by decide)⟩))
  | function word => exact .inr (.inl ⟨word, rfl, opens⟩)

theorem Token.Opens.flush : Flush (token :: rest) := by
  rcases opens.cases with ⟨word, _, rfl⟩ | ⟨word, rfl, isWord, _⟩ | ⟨value, rfl⟩ |
    ⟨c, more, chars, noSpace, _⟩
  · exact flush_keyword word rest
  · exact @flush_of_isWord (.function word) isWord rest
  · exact flush_name value rest
  · exact flush_of_startsWith ⟨c, more, chars, noSpace⟩

/-- A keyword that names no function is not read from another first token of an
expression. -/
theorem Token.Opens.keyword_misses (word : Keyword) (other : token ≠ .keyword word)
    (noName : word ∉ Keyword.callable) :
    Misses (Lexer.keyword word.text) (write (token :: rest)) := by
  rcases opens.cases with ⟨found, member, rfl⟩ | ⟨found, rfl, isWord, isName⟩ | ⟨value, rfl⟩ |
    ⟨c, more, chars, noSpace, noLetter, _⟩
  · apply keyword_misses_keyword
    rintro rfl
    exact other rfl
  · exact keyword_misses_function isWord isName noName
  · exact @keyword_misses_of_startsWith word (.name value) rest ⟨'"', _, rfl, by decide⟩
  · exact keyword_misses_of_startsWith ⟨c, more, chars, noSpace, noLetter⟩

theorem Token.Opens.star_misses : Misses (Lexer.symbol '*') (write (token :: rest)) := by
  rcases opens.cases with ⟨word, _, rfl⟩ | ⟨word, rfl, isWord, _⟩ | ⟨value, rfl⟩ |
    ⟨c, more, chars, noSpace, _, noStar, _⟩
  · exact @symbol_misses_of_isWord (.keyword word) '*' word.isWord (by decide) rest
  · exact @symbol_misses_of_isWord (.function word) '*' isWord (by decide) rest
  · exact symbol_misses (flush_name value rest) (by simp [write_cons, Token.chars, inQuotes])
  · apply symbol_misses (flush_of_startsWith ⟨c, more, chars, noSpace⟩)
    simpa [write_cons, chars] using noStar

end Opens

theorem Literal.begins {value : Literal} (spelled : value.Spelled) :
    Begins (fun token => token.Opens ∧ token ≠ .keyword .not) value.tokens := by
  have constant : ∀ (word : Keyword) (rest : List Token), word ∈ Keyword.opening → word ≠ .not →
      Begins (fun token => token.Opens ∧ token ≠ .keyword .not) (.keyword word :: rest) := by
    intro word rest opens other
    exact ⟨.keyword word, rest, rfl, opens, by simpa using other⟩
  cases value with
  | string value => exact ⟨.string value, [], rfl, trivial, nofun⟩
  | integer value =>
      refine ⟨.number (toString value), [], rfl, ?_, nofun⟩
      cases value with
      | ofNat n =>
          obtain ⟨c, more, chars, isFirst⟩ := (isDigits_toDigits n).isNumber.head
          refine ⟨c, more, ?_, isFirst.imp_right .inl⟩
          rw [← chars]
          exact toList_toString n
      | negSucc n => exact ⟨'-', _, toList_toString_negSucc n, .inr (.inr rfl)⟩
  | decimal digits => exact ⟨.number digits, [], rfl, spelled.head, nofun⟩
  | boolean value =>
      cases value with
      | true => exact constant .trueWord [] (by decide) (by decide)
      | false => exact constant .falseWord [] (by decide) (by decide)
  | date value => exact constant .date _ (by decide) (by decide)
  | time value => exact constant .time _ (by decide) (by decide)
  | timestamp value => exact constant .timestamp _ (by decide) (by decide)
  | null => exact constant .null [] (by decide) (by decide)

/-- The part of a regular expression is regular. -/
theorem Expr.Regular.child {e child : Expr} (regular : e.Regular)
    (inside : ∀ part ∈ child.parts, part ∈ e.parts) : child.Regular :=
  fun part member => regular part (inside part member)

/-! ### The left spine -/

theorem begins_flagged {isNegated : Bool} {word : Keyword} {rank : Nat} (lower : word.rank < rank)
    (above : Keyword.not.rank < rank) (tokens : List Token) :
    Begins (Token.Separates rank) (flagged isNegated .not ++ .keyword word :: tokens) := by
  cases isNegated with
  | true => exact ⟨.keyword .not, _, rfl, Token.separates_keyword above⟩
  | false => exact ⟨.keyword word, _, rfl, Token.separates_keyword lower⟩

theorem begins_operator (op : BinaryOp) (tokens : List Token) :
    Begins (Token.Separates 23) (op.token :: tokens) := by
  have bounded := op.level_le
  exact ⟨op.token, tokens, rfl, op.separates.mono (by omega)⟩

/-- The expression is written as another one with more tokens after it. -/
structure Expr.Extends (e left : Expr) (suffix : List Token) : Prop where
  tokens : e.tokens = left.tokens ++ suffix
  regular : left.Regular
  onLevel : e.level ≤ left.level
  begins : Begins (Token.Separates 23) suffix

/-- The expression has no left operand. -/
def Expr.Leftmost : Expr → Prop
  | .binary _ _ _ | .like _ _ _ | .between _ _ _ _ | .inList _ _ _ | .inQuery _ _ _ | .isNull _ _
  | .compareAny _ _ _ | .compareAll _ _ _ => False
  | .column _ | .literal _ | .parameter | .unary _ _ | .nested _ | .call _ _ _ _ | .existsIn _
  | .subquery _ | .case _ _ _ => True

/-- An operator or a predicate extends its left operand. -/
theorem Expr.leftmost_or_extends {e : Expr} (regular : e.Regular) :
    e.Leftmost ∨ ∃ left suffix, e.Extends left suffix ∧ sizeOf left < sizeOf e := by
  have childRegular : ∀ child : Expr, (∀ part ∈ child.parts, part ∈ e.parts) → child.Regular :=
    fun child => regular.child
  have grouped := regular.grouped
  cases e with
  | binary op left right =>
      exact .inr ⟨left, _, ⟨rfl, childRegular left (by simp +contextual [Expr.parts]), grouped.1,
        begins_operator op _⟩, by simp +arith⟩
  | like isNegated subject pattern =>
      exact .inr ⟨subject, _,
        ⟨rfl, childRegular subject (by simp +contextual [Expr.parts]), grouped.1,
        begins_flagged (by decide) (by decide) _⟩, by simp +arith⟩
  | between isNegated subject low high =>
      exact .inr ⟨subject, _,
        ⟨rfl, childRegular subject (by simp +contextual [Expr.parts]), grouped.1,
        begins_flagged (by decide) (by decide) _⟩, by simp +arith⟩
  | inList isNegated subject items =>
      exact .inr ⟨subject, _,
        ⟨rfl, childRegular subject (by simp +contextual [Expr.parts]), grouped,
        begins_flagged (by decide) (by decide) _⟩, by simp +arith⟩
  | inQuery isNegated subject query =>
      exact .inr ⟨subject, _,
        ⟨rfl, childRegular subject (by simp +contextual [Expr.parts]), grouped,
        begins_flagged (by decide) (by decide) _⟩, by simp +arith⟩
  | isNull isNegated subject =>
      exact .inr ⟨subject, _,
        ⟨rfl, childRegular subject (by simp +contextual [Expr.parts]), grouped,
        ⟨_, _, rfl, Token.separates_keyword (by decide)⟩⟩, by simp +arith⟩
  | compareAny op left query =>
      exact .inr ⟨left, _, ⟨rfl, childRegular left (by simp +contextual [Expr.parts]), grouped,
        begins_operator op _⟩, by simp +arith⟩
  | compareAll op left query =>
      exact .inr ⟨left, _, ⟨rfl, childRegular left (by simp +contextual [Expr.parts]), grouped,
        begins_operator op _⟩, by simp +arith⟩
  | column _ | literal _ | parameter | unary _ _ | nested _ | call _ _ _ _ | existsIn _ | subquery _
  | case _ _ _ => exact .inl trivial

/-- Induction along left operands. -/
theorem Expr.spine_induction {motive : (e : Expr) → e.Regular → Prop}
    (leftmost : ∀ (e : Expr) (regular : e.Regular), e.Leftmost → motive e regular)
    (extend : ∀ (e left : Expr) (suffix : List Token) (regular : e.Regular)
      (grown : e.Extends left suffix), motive left grown.regular → motive e regular)
    (e : Expr) (regular : e.Regular) : motive e regular := by
  rcases Expr.leftmost_or_extends regular with isLeftmost | ⟨left, suffix, grown, smaller⟩
  · exact leftmost e regular isLeftmost
  · exact extend e left suffix regular grown
      (Expr.spine_induction leftmost extend left grown.regular)
termination_by sizeOf e

/-- The tokens of an expression start with one that may do so, and with NOT only
if no predicate binds more tightly than the whole. -/
theorem Expr.begins (e : Expr) (regular : e.Regular) :
    Begins (fun token => token.Opens ∧ (token = .keyword .not → e.level ≤ 2)) e.tokens := by
  induction e, regular using Expr.spine_induction with
  | leftmost e regular isLeftmost =>
      cases e with
      | column name =>
          have some : name ≠ [] := regular.spelled
          cases name with
          | nil => contradiction
          | cons part rest => exact ⟨.name part, _, rfl, trivial, nofun⟩
      | literal value =>
          exact (Literal.begins regular.spelled).mono fun _ opens =>
            ⟨opens.1, fun isNot => (opens.2 isNot).elim⟩
      | parameter => exact ⟨.mark .question, [], rfl, by simp [Token.Opens], nofun⟩
      | unary op operand =>
          cases op with
          | not =>
              exact ⟨.keyword .not, _, rfl, by simp [Token.Opens, Keyword.opening],
                fun _ => Nat.le_refl 2⟩
          | minus => exact ⟨.mark .minus, _, rfl, by simp [Token.Opens], nofun⟩
          | plus => exact ⟨.mark .plus, _, rfl, by simp [Token.Opens], nofun⟩
      | nested inner => exact ⟨.mark .openBracket, _, rfl, by simp [Token.Opens], nofun⟩
      | call name args distinct star =>
          have spelled : IsWord name.toList ∧ _ := regular.spelled
          exact ⟨.function name, _, rfl, ⟨spelled.1, spelled.2.1⟩, nofun⟩
      | existsIn query =>
          exact ⟨.keyword .exists, _, rfl, by simp [Token.Opens, Keyword.opening], nofun⟩
      | subquery query => exact ⟨.mark .openBracket, _, rfl, by simp [Token.Opens], nofun⟩
      | case operand branches otherwise =>
          exact ⟨.keyword .case, _, rfl, by simp [Token.Opens, Keyword.opening], nofun⟩
      | binary _ _ _ | like _ _ _ | between _ _ _ _ | inList _ _ _ | inQuery _ _ _ | isNull _ _
      | compareAny _ _ _ | compareAll _ _ _ => exact isLeftmost.elim
  | extend e left suffix _ grown ih =>
      rw [grown.tokens]
      exact (ih.append suffix).mono fun _ opens =>
        ⟨opens.1, fun isNot => grown.onLevel.trans (opens.2 isNot)⟩

theorem Expr.Regular.opens {e : Expr} (regular : e.Regular) : Begins Token.Opens e.tokens :=
  (e.begins regular).mono fun _ opens => opens.1

theorem Begins.ends_of_opens {tokens : List Token} (begins : Begins Token.Opens tokens)
    (low : Nat) :
    Ends 25 low tokens :=
  begins.ends fun _ opens rest => stops_of_flush (opens.flush rest)

theorem Begins.avoids_keyword {tokens : List Token} (begins : Begins Token.Opens tokens)
    (word : Keyword) (other : word ∉ Keyword.opening)
    (noName : word ∉ Keyword.callable) (rank : Nat) :
    Avoids (keyword word.text) rank tokens :=
  begins.avoids fun _ opens rest =>
    opens.keyword_misses rest word (fun same => other (by rwa [same] at opens)) noName

/-! ## Names -/

theorem token_gap {α : Type} (p : Lexer α) {rest : List Token} (flush : Flush rest) :
    Lexer.token p (gap rest) = Lexer.token p (write rest) := by
  rw [token_apply, token_apply, dropWhile_gap flush, flush]

theorem reads_identifier (value : String) : Reads identifier 25 [.name value] value :=
  ⟨fun _ stops => identifier_write value stops.1⟩

/-- No point follows where a name ends. -/
theorem Stops.head?_ne_dot {rest : List Token} (stops : Stops 23 rest) :
    (write rest).head? ≠ some '.' := by
  have alone : ∀ other : Mark, other.rank < Mark.dot.rank → other.chars.head? ≠ some '.' := by
    intro other
    cases other <;> decide
  exact @Stops.head?_ne .dot '.' rest stops alone (by decide)

theorem char_misses {c : Char} {s : List Char} (other : s.head? ≠ some c) : Misses (char c) s := by
  cases s with
  | nil => exact ⟨_, rfl⟩
  | cons d more =>
      have different : d ≠ c := by simpa using other
      exact ⟨d :: more, by simp [char, satisfy, different]⟩

theorem point_write (rest : List Token) :
    char '.' (write (.mark .dot :: rest)) = .ok '.' (gap rest) := by
  rw [write_cons]
  rfl

/-- A name is read up to a place where no point with a part behind it follows. -/
theorem objectName_write {name : ObjectName} (some : name ≠ []) {rest : List Token}
    (stops : Stops 24 rest) (missed : Misses (do let _ ← char '.'; identifier) (write rest)) :
    objectName (write (name.tokens ++ rest)) = .ok name (write rest) := by
  have next : ∀ part ∈ name,
      Reads (do let _ ← char '.'; identifier) 24 [.mark .dot, .name part] part := by
    intro part _
    constructor
    intro rest stops
    refine (bind_of_ok (point_write (.name part :: rest))).trans ?_
    refine (token_gap _ (flush_name part rest)).trans ?_
    exact identifier_write part stops.1
  exact separatedList1_write some (by decide)
    (fun part _ => (reads_identifier part).mono (by decide)) next stops missed

theorem reads_objectName {name : ObjectName} (some : name ≠ []) :
    Reads objectName 23 name.tokens name :=
  ⟨fun _ stops => objectName_write some (stops.mono (by decide))
    ((char_misses stops.head?_ne_dot).bind _)⟩

theorem reads_asName (name : Option String) :
    Reads (optional asName) 11 (asNameTokens name) name := by
  cases name with
  | none =>
      apply Reads.absent
      constructor
      intro rest stops
      have noAs : Misses (keyword "AS") (write rest) := keyword_misses_of_stops .as stops
      exact .after (optional_of_misses noAs) (identifier_misses_of_stops stops (by decide))
  | some value =>
      apply Reads.optional
      have withAs : Reads (optional (keyword "AS")) 25 [.keyword .as] (some ()) :=
        (reads_keyword .as).optional
      exact .bind withAs ((reads_identifier value).mono (by decide))
        ⟨fun rest _ => stops_of_flush (flush_name value rest)⟩

end TripleTables.Sql
