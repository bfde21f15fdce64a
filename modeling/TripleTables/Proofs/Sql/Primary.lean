import TripleTables.Proofs.Sql.Opening

/-!
# Reading back what stands for itself

Constants, names, calls, CASE and what stands in brackets are read back from
their tokens, and so are signs before them.  The readers for nested parts are
assumed to read back everything that is light enough; what stands behind a token
is lighter than the whole.
-/

namespace TripleTables.Sql

open Reader Lexer

/-! ## Light trees -/

/-- A regular expression that is lighter than a bound. -/
structure Expr.Fits (n : Nat) (e : Expr) : Prop where
  regular : e.Regular
  light : weight e.tokens < n

/-- A regular query that is lighter than a bound. -/
structure Query.Fits (n : Nat) (query : Query) : Prop where
  regular : query.Regular
  light : weight query.tokens < n

theorem Query.begins (query : Query) : Begins (· = .keyword .select) query.tokens := by
  cases query
  exact ⟨.keyword .select, _, rfl, rfl⟩

theorem Expr.Fits.child {e child : Expr} {n : Nat} (fits : e.Fits (n + 1))
    (inside : ∀ part ∈ child.parts, part ∈ e.parts)
    (lighter : weight child.tokens < weight e.tokens) :
    child.Fits n :=
  ⟨fits.regular.child inside, by have := fits.light; omega⟩

theorem Expr.Fits.query {e : Expr} {query : Query} {n : Nat} (fits : e.Fits (n + 1))
    (inside : ∀ part ∈ query.parts, part ∈ e.parts)
    (lighter : weight query.tokens < weight e.tokens) : query.Fits n :=
  ⟨fun part member => fits.regular part (inside part member), by have := fits.light; omega⟩

/-- The readers for nested parts read back what is lighter than a bound. -/
structure Nested.Faithful (nested : Nested) (n : Nat) : Prop where
  expr : ∀ e : Expr, e.Fits n → Reads nested.expr 15 e.tokens e
  negation : ∀ e : Expr, e.Fits n → 2 ≤ e.level → Reads nested.negation 17 e.tokens e
  signed : ∀ e : Expr, e.Fits n → 7 ≤ e.level → Reads nested.signed 22 e.tokens e
  query : ∀ query : Query, query.Fits n → Reads nested.query 1 query.tokens query
  noExpr : Avoids nested.expr 1 []
  noQuery : ∀ tokens, Begins Token.Opens tokens → ∀ rank, Avoids nested.query rank tokens

namespace Expression

variable {nested : Nested} {n : Nat}

/-! ## Brackets -/

theorem begins_listed {items : List Expr} (some : items ≠ []) (fits : ∀ e ∈ items, e.Fits n) :
    Begins Token.Opens (listed (.mark .comma) (items.map Expr.tokens)) := by
  cases items with
  | nil => contradiction
  | cons first rest => exact (fits first (by simp)).regular.opens.append _

section Nested

variable (faithful : nested.Faithful n)

include faithful

theorem reads_bracketedQuery {query : Query} (fits : query.Fits n) :
    Reads (bracketedQuery nested) 25 (inBrackets query.tokens) query := by
  apply Reads.inBrackets (faithful.query query fits) Nat.one_pos
  apply query.begins.ends
  rintro token rfl rest
  exact stops_of_flush (flush_keyword .select rest)

theorem avoids_bracketedQuery {tokens : List Token} (begins : Begins Token.Opens tokens)
    (rank : Nat) : Avoids (bracketedQuery nested) rank (inBrackets tokens) :=
  .after (reads_symbol rfl) ((faithful.noQuery _ (begins.append _) rank).bind _)
    ((begins.append _).ends_of_opens rank)

theorem reads_nested {inner : Expr} (fits : inner.Fits n) :
    Reads (bracketed nested) 25 (inBrackets inner.tokens) (.nested inner) := by
  have opens := fits.regular.opens
  apply Reads.orAfterFailure_right ((avoids_bracketedQuery faithful opens 25).bind _)
  exact .inBrackets (faithful.expr inner fits) (by decide) (opens.ends_of_opens 1) Expr.nested

theorem reads_subquery {query : Query} (fits : query.Fits n) :
    Reads (bracketed nested) 25 (inBrackets query.tokens) (.subquery query) :=
  .orAfterFailure_left ((reads_bracketedQuery faithful fits).map Expr.subquery) _

theorem reads_commaList {items : List Expr} (some : items ≠ []) (fits : ∀ e ∈ items, e.Fits n) :
    Reads (separatedList1 (symbol ',') nested.expr) 8
      (listed (.mark .comma) (items.map Expr.tokens)) items :=
  .commaList some (by decide) (fun e member => faithful.expr e (fits e member))
    fun e member => (fits e member).regular.opens.ends_of_opens 15

theorem reads_bracketedList {items : List Expr} (some : items ≠ []) (fits : ∀ e ∈ items, e.Fits n) :
    Reads (bracketedList nested) 25
      (inBrackets (listed (.mark .comma) (items.map Expr.tokens))) items :=
  .inBrackets (reads_commaList faithful some fits) (by decide)
    ((begins_listed some fits).ends_of_opens 1) id

/-! ## Calls -/

/-- Arguments, of which there may be none before the closing bracket. -/
theorem reads_arguments {args : List Expr} (fits : ∀ e ∈ args, e.Fits n) :
    Reads (separatedList (symbol ',') nested.expr) 1
      (listed (.mark .comma) (args.map Expr.tokens)) args := by
  cases args with
  | nil => exact (Reads.absent (faithful.noExpr.bind _)).map (·.getD [])
  | cons first rest =>
      have read := reads_commaList faithful (List.cons_ne_nil first rest) fits
      exact (read.optional.map (·.getD [])).mono (by decide)

omit faithful in
/-- What stands between the brackets of a call starts an expression or closes
the brackets. -/
theorem begins_arguments {args : List Expr} (fits : ∀ e ∈ args, e.Fits n) :
    Begins (fun token => token.Opens ∨ token = .mark .closeBracket)
      (listed (.mark .comma) (args.map Expr.tokens) ++ [.mark .closeBracket]) := by
  cases args with
  | nil => exact ⟨.mark .closeBracket, [], rfl, .inr rfl⟩
  | cons first rest =>
      exact ((begins_listed (List.cons_ne_nil first rest) fits).append _).mono fun _ => .inl

omit faithful in
theorem ends_arguments {args : List Expr} (fits : ∀ e ∈ args, e.Fits n) :
    Ends 25 25 (listed (.mark .comma) (args.map Expr.tokens) ++ [.mark .closeBracket]) := by
  apply (begins_arguments fits).ends
  rintro token (opens | rfl) rest
  · exact stops_of_flush (opens.flush rest)
  · exact stops_of_flush (flush_mark .closeBracket rest)

/-- A call whose arguments are listed. -/
theorem reads_listedCall (name : String) {args : List Expr} (fits : ∀ e ∈ args, e.Fits n)
    (distinct : Bool) :
    Reads (do
        let distinct ← optional (keyword "DISTINCT")
        let args ← separatedList (symbol ',') nested.expr
        symbol ')'
        return Expr.call name args distinct.isSome false)
      25 (flagged distinct .distinct ++
        (listed (.mark .comma) (args.map Expr.tokens) ++ [.mark .closeBracket]))
      (.call name args distinct false) := by
  have argsRead : ∀ isDistinct : Bool,
      Reads (do
          let args ← separatedList (symbol ',') nested.expr
          symbol ')'
          return Expr.call name args isDistinct false)
        25 (listed (.mark .comma) (args.map Expr.tokens) ++ [.mark .closeBracket])
        (.call name args isDistinct false) := by
    intro isDistinct
    have closed : Reads (do symbol ')'; return Expr.call name args isDistinct false : Lexer Expr) 25
        [.mark .closeBracket] (.call name args isDistinct false) :=
      .symbol rfl (.pure _) (.nil (Nat.le_refl 25))
    exact .bind (reads_arguments faithful fits) closed (.mark (by decide) [])
  cases distinct with
  | true => exact .bind (reads_keyword .distinct).optional (argsRead true) (ends_arguments fits)
  | false =>
      apply Reads.skip _ (argsRead false)
      apply (begins_arguments fits).avoids
      rintro token (opens | rfl) rest
      · refine opens.keyword_misses rest .distinct ?_ (by decide)
        rintro rfl
        exact absurd opens (by simp [Token.Opens, Keyword.opening])
      · exact @keyword_misses_of_startsWith .distinct _ _ ⟨')', [], rfl, by decide, by decide⟩

theorem reads_call {name : String} {args : List Expr} {distinct star : Bool}
    (isWord : IsWord name.toList) (isName : isFunctionName name.toList = true)
    (alone : star = true → args = [] ∧ distinct = false) (fits : ∀ e ∈ args, e.Fits n) :
    Reads (call nested) 25 (Expr.call name args distinct star).tokens
      (.call name args distinct star) := by
  have nameRead : Reads (Lexer.token (word isFunctionName)) 25 [.function name] name := by
    constructor
    intro rest stops
    have read := @word_write (.function name) isWord rest isFunctionName isName stops.1
    simpa [Token.chars] using read
  cases star with
  | true =>
      obtain ⟨rfl, rfl⟩ := alone rfl
      have closed : Reads (do symbol ')'; return Expr.call name [] false true : Lexer Expr) 25
          [.mark .closeBracket] (.call name [] false true) :=
        .symbol rfl (.pure _) (.nil (Nat.le_refl 25))
      have star : Reads (optional (symbol '*')) 25 [.mark .star] (some ()) :=
        (reads_symbol rfl).optional
      refine .bind nameRead ?_ (.mark (by decide) _)
      exact .symbol rfl (.bind star closed (.mark (by decide) [])) (.mark (by decide) _)
  | false =>
      have tokens : (Expr.call name args distinct false).tokens =
          [.function name] ++ .mark .openBracket :: (flagged distinct .distinct ++
            (listed (.mark .comma) (args.map Expr.tokens) ++ [.mark .closeBracket])) := by
        simp [Expr.tokens, inBrackets]
      rw [tokens]
      refine .bind nameRead (.symbol rfl (.skip ?_ (reads_listedCall faithful name fits distinct))
        (.flagged (by decide) (ends_arguments fits))) (.mark (by decide) _)
      cases distinct with
      | true =>
          exact ⟨fun rest _ =>
            @symbol_misses_of_isWord (.keyword .distinct) '*' (Keyword.isWord _) (by decide) _⟩
      | false =>
          apply (begins_arguments fits).avoids
          rintro token (opens | rfl) rest
          · exact opens.star_misses rest
          · exact symbol_misses_mark (by decide) rest

/-! ## CASE -/

theorem reads_branch {condition result : Expr} (conditionFits : condition.Fits n)
    (resultFits : result.Fits n) :
    Reads (branch nested) 15 (Branch.mk condition result).tokens ⟨condition, result⟩ := by
  have resultRead : Reads (do
        keyword "THEN"
        let result ← nested.expr
        return ⟨condition, result⟩ : Lexer Branch) 15
      (.keyword .then :: result.tokens) ⟨condition, result⟩ :=
    .keyword .then ((faithful.expr result resultFits).map (Branch.mk condition))
      (resultFits.regular.opens.ends_of_opens 15)
  exact .keyword .when
    (.bind (faithful.expr condition conditionFits) resultRead (.keyword (by decide) _))
    ((conditionFits.regular.opens.append _).ends_of_opens 15)

/-- The operand of CASE is read, or found to be absent before the first branch. -/
theorem caseOperand_write {operand : Option Expr} (fits : ∀ e ∈ operand, e.Fits n)
    {branches : List Token} (begins : Begins (· = .keyword .when) branches) :
    caseOperand nested (write (led [] (operand.map Expr.tokens) ++ branches)) =
      .ok operand (write branches) := by
  obtain ⟨_, rest, rfl, rfl⟩ := begins
  cases operand with
  | none =>
      have next : keyword "WHEN" (write (.keyword .when :: rest)) =
          .ok () ((gap rest).dropWhile isSpace) := by
        rw [write_cons]
        exact keyword_of_sameLetters .when (Keyword.isWord .when) eq_space_of_mem_gap rfl
      exact bind_of_ok (succeeds_of_ok next)
  | some e =>
      have eFits := fits e rfl
      have stops : Stops 15 (.keyword .when :: rest) :=
        stops_cons.mpr ⟨flush_keyword .when rest, by decide⟩
      have noWhen := (eFits.regular.opens.avoids_keyword .when (by decide) (by decide) 15).misses
        _ stops
      refine (bind_of_ok (succeeds_of_misses noWhen)).trans ?_
      exact ((faithful.expr e eFits).map some).ok _ stops

theorem reads_case {operand otherwise : Option Expr} {branches : List Branch}
    (operandFits : ∀ e ∈ operand, e.Fits n) (otherwiseFits : ∀ e ∈ otherwise, e.Fits n)
    (some : branches ≠ [])
    (branchesFit : ∀ branch ∈ branches, branch.condition.Fits n ∧ branch.result.Fits n) :
    Reads (caseExpression nested) 25 (Expr.case operand branches otherwise).tokens
      (.case operand branches otherwise) := by
  have begins : ∀ branch : Branch, Begins (· = .keyword .when) branch.tokens :=
    fun ⟨_, _⟩ => ⟨.keyword .when, _, rfl, rfl⟩
  have ended : Reads (do keyword "END"; return .case operand branches otherwise : Lexer Expr) 25
      [.keyword .end] (.case operand branches otherwise) :=
    .keyword .end (.pure _) (.nil (Nat.le_refl 25))
  have otherwiseRead : Reads (optional (do keyword "ELSE"; nested.expr)) 13
      (led [.else] (otherwise.map Expr.tokens)) otherwise := by
    cases otherwise with
    | none => exact .absent ((Avoids.keyword .else).bind _)
    | some e =>
        have eFits := otherwiseFits e rfl
        exact .optional (.keyword .else ((faithful.expr e eFits).mono (by decide))
          (eFits.regular.opens.ends_of_opens 13))
  have each : ∀ branch ∈ branches, Reads (Expression.branch nested) 15 branch.tokens branch := by
    rintro ⟨condition, result⟩ member
    obtain ⟨conditionFits, resultFits⟩ := branchesFit _ member
    exact reads_branch faithful conditionFits resultFits
  have separate : ∀ branch ∈ branches, Begins (Token.Separates 15) branch.tokens := by
    intro branch _
    apply (begins branch).mono
    rintro token rfl
    exact Token.separates_keyword (by decide)
  have branchesRead : Reads (many1 (branch nested)) 14 (branches.flatMap Branch.tokens) branches :=
    .many1 some (by decide) each separate ((Avoids.keyword .when).bind _)
  have branchesBegin : Begins (· = .keyword .when) (branches.flatMap Branch.tokens) := by
    cases branches with
    | nil => contradiction
    | cons first rest => exact (begins first).append _
  have elseEnds : Ends 14 13 (led [.else] (otherwise.map Expr.tokens)) :=
    .led (by decide) (by decide) _
  simp only [Expr.tokens, Expr.optionTokens_eq, Branch.listTokens_eq]
  refine .keyword .case (.bind_before ?_ (.bind branchesRead
    (.bind otherwiseRead ended (.keyword (by decide) []))
    (elseEnds.append (.keyword (by decide) [])))) ?_
  · intro rest _
    exact caseOperand_write faithful operandFits ((branchesBegin.append _).append rest)
  · cases operand with
    | none =>
        apply (branchesBegin.append _).ends
        rintro token rfl rest
        exact stops_of_flush (flush_keyword .when rest)
    | some e => exact ((operandFits e rfl).regular.opens.append _).ends_of_opens 25

end Nested

/-! ## What stands for itself -/

/-- The choices for what stands for itself, from names on. -/
def fromName (nested : Nested) : Lexer Expr :=
  orElse (call nested) (do return .column (← objectName))

/-- The choices from the constants that are keywords on. -/
def fromWord (nested : Nested) : Lexer Expr :=
  orElse (wordLiteral "TRUE" (.boolean true)) <|
    orElse (wordLiteral "FALSE" (.boolean false)) <|
      orElse (wordLiteral "NULL" .null) <|
        orElse (caseExpression nested) <|
          orElse (existsCondition nested) (fromName nested)

/-- The choices from the other constants on. -/
def fromConstant (nested : Nested) : Lexer Expr :=
  orElse typedLiteral <|
    orElse (do return .literal (.string (← Lexer.string))) <|
      orElse (do return .literal (numberLiteral (← number))) (fromWord nested)

theorem primary_eq : primary nested =
    orElse (bracketed nested) (orElse parameter (orElse bracedLiteral (fromConstant nested))) :=
  rfl

section Choices

variable {rank : Nat} {tokens : List Token} {e : Expr}

/-- What starts with no bracket is passed on to the constants. -/
theorem reads_primary_of_fromConstant
    (begins : Begins (fun token => token.StartsWith fun c =>
      isSpace c = false ∧ c ≠ '(' ∧ c ≠ '?' ∧ c ≠ '\x7b') tokens)
    (reads : Reads (fromConstant nested) rank tokens e) : Reads (primary nested) rank tokens e := by
  have avoids : ∀ c, c = '(' ∨ c = '?' ∨ c = '\x7b' → Avoids (symbol c) rank tokens := by
    intro c isBracket
    apply begins.avoids
    rintro token ⟨first, more, chars, noSpace, noOpen, noQuestion, noBrace⟩ rest
    apply symbol_misses (flush_of_startsWith ⟨first, more, chars, noSpace⟩)
    rcases isBracket with rfl | rfl | rfl
    · simpa [write_cons, chars] using noOpen
    · simpa [write_cons, chars] using noQuestion
    · simpa [write_cons, chars] using noBrace
  have noBracket := avoids '(' (by simp)
  have noQuery : Avoids (bracketed nested) rank tokens :=
    .orAfterFailure ((noBracket.bind _).bind _) (noBracket.bind _)
  rw [primary_eq]
  exact .orElse_right noQuery (.orElse_right ((avoids '?' (by simp)).bind _)
    (.orElse_right ((avoids '\x7b' (by simp)).bind _) reads))

/-- What starts like no constant is passed on to the keywords. -/
theorem reads_fromConstant_of_fromWord (typed : Avoids typedLiteral rank tokens)
    (begins : Begins (fun token => token.StartsWith fun c =>
      isSpace c = false ∧ c ≠ '\'' ∧ c.isDigit = false ∧ c ≠ '.') tokens)
    (reads : Reads (fromWord nested) rank tokens e) :
    Reads (fromConstant nested) rank tokens e := by
  have noString : Avoids Lexer.string rank tokens := by
    apply begins.avoids
    rintro token ⟨first, more, chars, noSpace, noQuote, _⟩ rest
    apply string_misses (flush_of_startsWith ⟨first, more, chars, noSpace⟩)
    simpa [write_cons, chars] using noQuote
  have noNumber : Avoids number rank tokens := by
    apply begins.avoids
    rintro token ⟨first, more, chars, noSpace, _, noDigit⟩ rest
    apply number_misses (flush_of_startsWith ⟨first, more, chars, noSpace⟩)
    simpa [write_cons, chars] using noDigit
  exact .orElse_right typed
    (.orElse_right (noString.bind _) (.orElse_right (noNumber.bind _) reads))

theorem reads_fromWord_of_fromName
    (noWord : ∀ word ∈ [Keyword.trueWord, .falseWord, .null, .case, .exists],
      Avoids (keyword word.text) rank tokens)
    (reads : Reads (fromName nested) rank tokens e) : Reads (fromWord nested) rank tokens e :=
  .orElse_right ((noWord .trueWord (by simp)).bind _)
    (.orElse_right ((noWord .falseWord (by simp)).bind _)
      (.orElse_right ((noWord .null (by simp)).bind _)
        (.orElse_right ((noWord .case (by simp)).bind _)
          (.orElse_right ((noWord .exists (by simp)).bind _) reads))))

theorem avoids_typedLiteral (date : Avoids (typedString "DATE" .date) rank tokens)
    (timestamp : Avoids (typedString "TIMESTAMP" .timestamp) rank tokens)
    (time : Avoids (typedString "TIME" .time) rank tokens) : Avoids typedLiteral rank tokens := by
  apply Avoids.bind
  apply Avoids.firstOf
  simp only [List.mem_cons, List.not_mem_nil, or_false, forall_eq_or_imp, forall_eq]
  exact ⟨date, timestamp, time⟩

theorem avoids_typedLiteral_of_keyword
    (noKeyword : ∀ word : Keyword, Avoids (keyword word.text) rank tokens) :
    Avoids typedLiteral rank tokens :=
  avoids_typedLiteral ((noKeyword .date).bind _) ((noKeyword .timestamp).bind _)
    ((noKeyword .time).bind _)

/-- What starts with no letter is no keyword. -/
theorem avoids_keyword_of_startsWith
    (begins : Begins (fun token => token.StartsWith fun c =>
      isSpace c = false ∧ isWordStart c = false) tokens) (word : Keyword) :
    Avoids (keyword word.text) rank tokens :=
  begins.avoids fun _ starts _ => keyword_misses_of_startsWith starts

end Choices

/-! ## Constants -/

theorem isWordStart_ne {c d : Char} (start : isWordStart c = true)
    (noWord : isWordStart d = false) :
    c ≠ d := by
  rintro rfl
  simp [noWord] at start

theorem isDigit_eq_false_of_isWordStart {c : Char} (start : isWordStart c = true) :
    c.isDigit = false := by
  by_contra isDigit
  have noWord := isWordStart_eq_false_of_isDigit (.inl (by simpa using isDigit))
  simp [noWord] at start

section Words

variable {rank : Nat} {tokens : List Token} {e : Expr}

/-- A word is passed on to the keywords, unless it types a string. -/
theorem reads_primary_of_isWord (typed : Avoids typedLiteral rank tokens)
    (begins : Begins (fun token => IsWord token.chars) tokens)
    (reads : Reads (fromWord nested) rank tokens e) : Reads (primary nested) rank tokens e := by
  have starts : Begins (fun token => token.StartsWith fun c => isWordStart c = true) tokens :=
    begins.mono fun _ => Token.startsWith_of_isWord
  apply reads_primary_of_fromConstant
  · apply starts.mono
    rintro token ⟨c, more, chars, start⟩
    exact ⟨c, more, chars, isSpace_eq_false_of_isWordStart start, isWordStart_ne start (by decide),
      isWordStart_ne start (by decide), isWordStart_ne start (by decide)⟩
  · apply reads_fromConstant_of_fromWord typed _ reads
    apply starts.mono
    rintro token ⟨c, more, chars, start⟩
    exact ⟨c, more, chars, isSpace_eq_false_of_isWordStart start, isWordStart_ne start (by decide),
      isDigit_eq_false_of_isWordStart start, isWordStart_ne start (by decide)⟩

/-- A keyword that types no string is passed on to the keywords. -/
theorem reads_primary_of_keyword {word : Keyword} (date : word ≠ .date)
    (timestamp : word ≠ .timestamp) (time : word ≠ .time)
    (reads : Reads (fromWord nested) rank (.keyword word :: tokens) e) :
    Reads (primary nested) rank (.keyword word :: tokens) e :=
  reads_primary_of_isWord
    (avoids_typedLiteral ((Avoids.keyword_of_ne .date date tokens).bind _)
      ((Avoids.keyword_of_ne .timestamp timestamp tokens).bind _)
      ((Avoids.keyword_of_ne .time time tokens).bind _))
    ⟨.keyword word, tokens, rfl, word.isWord⟩ reads

end Words

theorem reads_string (value : String) : Reads Lexer.string 25 [.string value] value :=
  ⟨fun _ stops => string_write value stops.1⟩

/-- The constant has no sign. -/
def Unsigned : Literal → Prop
  | .integer value => 0 ≤ value
  | .decimal digits => IsNumber digits.toList
  | .string _ | .boolean _ | .date _ | .time _ | .timestamp _ | .null => True

theorem reads_typedString (word : Keyword) (literal : String → Literal) (value : String) :
    Reads (typedString word.text literal) 25 [.keyword word, .string value] (literal value) :=
  .keyword word ((reads_string value).map literal)
    ⟨fun rest _ => stops_of_flush (flush_string value rest)⟩

theorem reads_primary_of_typedLiteral {word : Keyword} {value : String} {literal : Literal}
    (reads : Reads typedLiteral 25 [.keyword word, .string value] (.literal literal)) :
    Reads (primary nested) 25 [.keyword word, .string value] (.literal literal) := by
  apply reads_primary_of_fromConstant
  · obtain ⟨c, more, chars, start, _⟩ := word.isWord
    exact ⟨.keyword word, [.string value], rfl, c, more, chars,
      isSpace_eq_false_of_isWordStart start,
      isWordStart_ne start (by decide), isWordStart_ne start (by decide),
      isWordStart_ne start (by decide)⟩
  · exact .orElse_left reads _

theorem reads_number {text : String} {value : Literal} (isNumber : IsNumber text.toList)
    (literal : numberLiteral text.toList = value) :
    Reads (primary nested) 25 [.number text] (.literal value) := by
  obtain ⟨c, more, chars, isFirst⟩ := isNumber.head
  have noSpace := isSpace_eq_false_of_isDigit isFirst
  have noWord : isWordStart c = false := isWordStart_eq_false_of_isDigit (isFirst.imp_right .inl)
  have other : ∀ d : Char, d.isDigit = false → d ≠ '.' → c ≠ d := by
    rintro d noDigit noPoint rfl
    simp [noDigit, noPoint] at isFirst
  have noKeyword : ∀ word : Keyword, Avoids (keyword word.text) 25 [.number text] :=
    avoids_keyword_of_startsWith ⟨.number text, [], rfl, c, more, chars, noSpace, noWord⟩
  have noString : Avoids Lexer.string 25 [.number text] := by
    constructor
    intro rest _
    apply string_misses (flush_number isNumber rest)
    rw [write_cons, Token.chars, chars]
    simpa using other '\'' (by decide) (by decide)
  have read : Reads number 25 [.number text] text.toList :=
    ⟨fun rest stops => number_write isNumber stops.1⟩
  apply reads_primary_of_fromConstant
  · exact ⟨.number text, [], rfl, c, more, chars, noSpace, other '(' (by decide) (by decide),
      other '?' (by decide) (by decide), other '\x7b' (by decide) (by decide)⟩
  · refine .orElse_right ?_ (.orElse_right (noString.bind _) (.orElse_left ?_ _))
    · exact avoids_typedLiteral_of_keyword noKeyword
    · rw [← literal]
      exact read.map fun digits => Expr.literal (numberLiteral digits)

theorem reads_wordLiteral (word : Keyword) (literal : Literal) :
    Reads (wordLiteral word.text literal) 25 [.keyword word] (.literal literal) :=
  .keyword word (.pure (Expr.literal literal)) (.nil (Nat.le_refl 25))

theorem reads_literal {value : Literal} (spelled : value.Spelled) (unsigned : Unsigned value) :
    Reads (primary nested) 25 value.tokens (.literal value) := by
  cases value with
  | string value =>
      have begins : ∀ holds : Char → Prop, holds '\'' →
          Begins (fun token => token.StartsWith holds) [.string value] :=
        fun _ isGood => ⟨.string value, [], rfl, '\'', _, rfl, isGood⟩
      have noKeyword : ∀ word : Keyword, Avoids (keyword word.text) 25 [.string value] :=
        avoids_keyword_of_startsWith (begins _ (by decide))
      apply reads_primary_of_fromConstant (begins _ (by decide))
      refine .orElse_right ?_ (.orElse_left ?_ _)
      · exact avoids_typedLiteral_of_keyword noKeyword
      · exact (reads_string value).map fun value => Expr.literal (.string value)
  | integer value =>
      obtain ⟨n, rfl⟩ := Int.eq_ofNat_of_zero_le unsigned
      have inRange : n ≤ maxInteger := by simpa [Literal.Spelled] using spelled
      apply reads_number
      · rw [toList_toString_natCast]
        exact (isDigits_toDigits n).isNumber
      · rw [toList_toString_natCast]
        exact numberLiteral_toDigits inRange
  | decimal digits =>
      apply reads_number unsigned
      rw [spelled.numberLiteral_eq unsigned, String.ofList_toList]
  | boolean value =>
      cases value with
      | true =>
          apply reads_primary_of_keyword (by decide) (by decide) (by decide)
          exact .orElse_left (reads_wordLiteral .trueWord (.boolean true)) _
      | false =>
          apply reads_primary_of_keyword (by decide) (by decide) (by decide)
          exact .orElse_right ((Avoids.keyword_of_ne .trueWord (by decide) []).bind _)
            (.orElse_left (reads_wordLiteral .falseWord (.boolean false)) _)
  | date value =>
      apply reads_primary_of_typedLiteral
      exact .map (.firstOf_head (reads_typedString .date .date value) _) Expr.literal
  | timestamp value =>
      apply reads_primary_of_typedLiteral
      refine .map
        (.orElse_right ?_ (.orElse_left (reads_typedString .timestamp .timestamp value) _))
        Expr.literal
      exact (Avoids.keyword_of_ne .date (by decide) _).bind _
  | time value =>
      apply reads_primary_of_typedLiteral
      refine .map (.orElse_right ?_ (.orElse_right ?_ (reads_typedString .time .time value)))
        Expr.literal
      · exact (Avoids.keyword_of_ne .date (by decide) _).bind _
      · exact (Avoids.keyword_of_ne .timestamp (by decide) _).bind _
  | null =>
      apply reads_primary_of_keyword (by decide) (by decide) (by decide)
      exact .orElse_right ((Avoids.keyword_of_ne .trueWord (by decide) []).bind _)
        (.orElse_right ((Avoids.keyword_of_ne .falseWord (by decide) []).bind _)
          (.orElse_left (reads_wordLiteral .null .null) _))

/-! ## Primaries -/

theorem reads_column {name : ObjectName} (some : name ≠ []) :
    Reads (primary nested) 23 name.tokens (.column name) := by
  have begins : ∀ holds : Char → Prop, holds '"' →
      Begins (fun token => token.StartsWith holds) name.tokens := by
    intro holds isGood
    cases name with
    | nil => contradiction
    | cons part rest => exact ⟨.name part, _, rfl, '"', _, rfl, isGood⟩
  have noKeyword : ∀ word : Keyword, Avoids (keyword word.text) 23 name.tokens :=
    avoids_keyword_of_startsWith (begins _ (by decide))
  have noCall : Avoids (call nested) 23 name.tokens := by
    apply Avoids.bind
    apply (begins (fun c => isSpace c = false ∧ isWordStart c = false) (by decide)).avoids
    rintro token ⟨c, more, chars, noSpace, noWord⟩ rest
    apply token_misses (flush_of_startsWith ⟨c, more, chars, noSpace⟩)
    rw [write_cons, chars]
    exact word_misses noWord _
  apply reads_primary_of_fromConstant (begins _ (by decide))
  apply reads_fromConstant_of_fromWord (avoids_typedLiteral_of_keyword noKeyword)
    (begins _ (by decide))
  apply reads_fromWord_of_fromName fun word _ => noKeyword word
  exact .orElse_right noCall ((reads_objectName some).map Expr.column)

/-- The name of a function types no string: a bracket follows it. -/
theorem avoids_typedString_function (word : Keyword) (literal : String → Literal) {name : String}
    (isWord : IsWord name.toList) (tokens : List Token) :
    Avoids (typedString word.text literal) 25 (.function name :: .mark .openBracket :: tokens) := by
  constructor
  intro rest _
  rcases keyword_function word isWord (flush_mark .openBracket (tokens ++ rest)) with read | missed
  · refine .after read (Misses.bind ?_ _)
    exact string_misses (flush_mark .openBracket _) (by simp [write_cons, Token.chars, Mark.chars])
  · exact missed.bind _

theorem fits_argument {name : String} {args : List Expr} {distinct star : Bool}
    (fits : (Expr.call name args distinct star).Fits (n + 1)) : ∀ e ∈ args, e.Fits n := by
  intro e member
  obtain ⟨regular, light⟩ := fits
  have spelled : _ ∧ _ ∧ (star = true → args = [] ∧ distinct = false) := regular.spelled
  have notStar : star = false := by
    by_contra isStar
    obtain ⟨rfl, _⟩ := spelled.2.2 (by simpa using isStar)
    simp at member
  subst star
  have listed := weight_le_listed (.mark .comma) Expr.tokens member
  simp only [Expr.tokens, Expr.listTokens_eq, Bool.false_eq_true, if_false, weight_cons,
    weight_inBrackets, weight_append] at light
  have argsRegular := (Part.every_cons.mp regular).2
  rw [Expr.listParts_eq, Part.every_flatMap] at argsRegular
  exact ⟨argsRegular e member, by omega⟩

section Case

variable {operand otherwise : Option Expr} {branches : List Branch}
variable (fits : (Expr.case operand branches otherwise).Fits (n + 1))

include fits

theorem regular_case :
    (∀ e ∈ operand, e.Regular) ∧
      (∀ branch ∈ branches, Part.Every Part.Regular branch.parts) ∧ ∀ e ∈ otherwise, e.Regular := by
  have regular := (Part.every_cons.mp fits.regular).2
  simpa only [Part.every_append, Expr.every_optionParts, Branch.listParts_eq, Part.every_flatMap,
    Expr.Regular] using regular

theorem light_case :
    weight (led [] (operand.map Expr.tokens)) + weight (branches.flatMap Branch.tokens) +
      weight (led [.else] (otherwise.map Expr.tokens)) < n := by
  have light := fits.light
  have some := Keyword.one_le_length .case
  simp only [Expr.tokens, Expr.optionTokens_eq, Branch.listTokens_eq, weight_cons,
    weight_append] at light
  omega

theorem fits_caseOperand : ∀ e ∈ operand, e.Fits n := by
  rintro e ⟨⟩
  have light := light_case fits
  have inside := weight_le_led [] e.tokens
  rw [Option.map_some] at light
  exact ⟨(regular_case fits).1 e rfl, by omega⟩

theorem fits_caseOtherwise : ∀ e ∈ otherwise, e.Fits n := by
  rintro e ⟨⟩
  have light := light_case fits
  have inside := weight_le_led [.else] e.tokens
  rw [Option.map_some] at light
  exact ⟨(regular_case fits).2.2 e rfl, by omega⟩

theorem fits_caseBranch :
    ∀ branch ∈ branches, branch.condition.Fits n ∧ branch.result.Fits n := by
  rintro ⟨condition, result⟩ member
  have light := light_case fits
  have inside := weight_le_flatMap Branch.tokens member
  simp only [Branch.tokens, weight_cons, weight_append] at inside
  have regular := Part.every_append.mp ((regular_case fits).2.1 _ member)
  have lighter : weight condition.tokens < n ∧ weight result.tokens < n := by omega
  exact ⟨⟨regular.1, lighter.1⟩, ⟨regular.2, lighter.2⟩⟩

end Case

section Primary

variable (faithful : nested.Faithful n)

include faithful

theorem reads_primary {e : Expr} (fits : e.Fits (n + 1)) (alone : e.StandsAlone)
    (unsigned : ∀ value, e = .literal value → Unsigned value) :
    Reads (primary nested) 23 e.tokens e := by
  cases alone with
  | column name => exact reads_column fits.regular.spelled
  | literal value =>
      exact (reads_literal fits.regular.spelled (unsigned value rfl)).mono (by decide)
  | parameter =>
      have noOpen : Avoids (symbol '(') 23 [.mark .question] :=
        ⟨fun rest _ => symbol_misses_mark (by decide) rest⟩
      refine .orElse_right (.orAfterFailure ((noOpen.bind _).bind _) (noOpen.bind _))
        (.orElse_left ?_ _)
      exact .symbol rfl (.pure Expr.parameter) (.nil (by decide))
  | nested inner =>
      have innerFits : inner.Fits n :=
        fits.child (by simp +contextual [Expr.parts])
          (by rw [Expr.tokens, weight_inBrackets]; omega)
      exact .orElse_left ((reads_nested faithful innerFits).mono (by decide)) _
  | subquery query =>
      have queryFits : query.Fits n :=
        fits.query (by simp +contextual [Expr.parts])
          (by rw [Expr.tokens, weight_inBrackets]; omega)
      exact .orElse_left ((reads_subquery faithful queryFits).mono (by decide)) _
  | existsIn query =>
      have queryFits : query.Fits n :=
        fits.query (by simp +contextual [Expr.parts])
          (by rw [Expr.tokens, weight_cons, weight_inBrackets]; omega)
      have read : Reads (existsCondition nested) 23 (Expr.existsIn query).tokens
          (.existsIn query) :=
        .keyword .exists
          (((reads_bracketedQuery faithful queryFits).map Expr.existsIn).mono (by decide))
          (.mark (by decide) _)
      have noKeyword : ∀ word : Keyword, Keyword.exists ≠ word →
          Avoids (keyword word.text) 23 (Expr.existsIn query).tokens :=
        fun word other => .keyword_of_ne word other _
      apply reads_primary_of_keyword (by decide) (by decide) (by decide)
      exact .orElse_right ((noKeyword .trueWord (by decide)).bind _)
        (.orElse_right ((noKeyword .falseWord (by decide)).bind _)
          (.orElse_right ((noKeyword .null (by decide)).bind _)
            (.orElse_right ((noKeyword .case (by decide)).bind _) (.orElse_left read _))))
  | case operand branches otherwise =>
      have noKeyword : ∀ word : Keyword, Keyword.case ≠ word →
          Avoids (keyword word.text) 23 (Expr.case operand branches otherwise).tokens :=
        fun word other => .keyword_of_ne word other _
      have read := reads_case faithful (fits_caseOperand fits) (fits_caseOtherwise fits)
        fits.regular.spelled (fits_caseBranch fits)
      apply reads_primary_of_keyword (by decide) (by decide) (by decide)
      exact .orElse_right ((noKeyword .trueWord (by decide)).bind _)
        (.orElse_right ((noKeyword .falseWord (by decide)).bind _)
          (.orElse_right ((noKeyword .null (by decide)).bind _)
            (.orElse_left (read.mono (by decide)) _)))
  | call name args distinct star =>
      obtain ⟨isWord, isName, alone⟩ := fits.regular.spelled
      have noWord : ∀ word ∈ [Keyword.trueWord, .falseWord, .null, .case, .exists],
          Avoids (keyword word.text) 25 (Expr.call name args distinct star).tokens := by
        intro word member
        have noName : ∀ word ∈ [Keyword.trueWord, .falseWord, .null, .case, .exists],
            word ∉ Keyword.callable := by
          decide
        exact ⟨fun rest _ => keyword_misses_function isWord isName (noName word member)⟩
      have typed : Avoids typedLiteral 25 (Expr.call name args distinct star).tokens :=
        avoids_typedLiteral (avoids_typedString_function .date _ isWord _)
          (avoids_typedString_function .timestamp _ isWord _)
          (avoids_typedString_function .time _ isWord _)
      have read := reads_call faithful isWord isName alone (fits_argument fits)
      have found := reads_primary_of_isWord typed ⟨.function name, _, rfl, isWord⟩
        (reads_fromWord_of_fromName noWord (.orElse_left read _))
      exact found.mono (by decide)

end Primary

/-! ## Signs -/

/-- What stands for itself starts with no sign, unless it is a constant with one. -/
theorem avoids_sign {e : Expr} (regular : e.Regular) (alone : e.StandsAlone)
    (unsigned : ∀ value, e = .literal value → Unsigned value) {c : Char}
    (isSign : c = '-' ∨ c = '+')
    (rank : Nat) : Avoids (symbol c) rank e.tokens := by
  have noWord : isWordStart c = false := by rcases isSign with rfl | rfl <;> decide
  have ofKeyword : ∀ word tokens, Avoids (symbol c) rank (.keyword word :: tokens) :=
    fun word tokens =>
      ⟨fun rest _ => @symbol_misses_of_isWord (.keyword word) c word.isWord noWord _⟩
  have ofOpen : ∀ tokens, Avoids (symbol c) rank (.mark .openBracket :: tokens) := by
    refine fun tokens => ⟨fun rest _ => symbol_misses_mark ?_ _⟩
    rcases isSign with rfl | rfl <;> decide
  have ofQuote : ∀ token more tokens, token.chars = '\'' :: more ∨ token.chars = '"' :: more →
      Avoids (symbol c) rank (token :: tokens) := by
    intro token more tokens chars
    refine ⟨fun rest _ => symbol_misses ?_ ?_⟩
    · rcases chars with chars | chars
      · exact flush_of_startsWith ⟨'\'', more, chars, by decide⟩
      · exact flush_of_startsWith ⟨'"', more, chars, by decide⟩
    · rcases isSign with rfl | rfl <;> rcases chars with chars | chars <;>
        simp [write_cons, chars]
  have ofNumber : ∀ text : String, IsNumber text.toList →
      Avoids (symbol c) rank [.number text] := by
    intro text isNumber
    refine ⟨fun rest _ => symbol_misses (flush_number isNumber _) ?_⟩
    obtain ⟨d, more, chars, isFirst⟩ := isNumber.head
    have different : d ≠ c := by
      rintro rfl
      rcases isSign with rfl | rfl <;> exact absurd isFirst (by decide)
    simpa [write_cons, Token.chars, chars] using different
  cases alone with
  | column name =>
      have some : name ≠ [] := regular.spelled
      cases name with
      | nil => contradiction
      | cons part rest => exact ofQuote (.name part) _ _ (.inr rfl)
  | literal value =>
      have isUnsigned := unsigned value rfl
      cases value with
      | string value => exact ofQuote (.string value) _ _ (.inl rfl)
      | integer value =>
          obtain ⟨n, rfl⟩ := Int.eq_ofNat_of_zero_le isUnsigned
          apply ofNumber
          rw [toList_toString_natCast]
          exact (isDigits_toDigits n).isNumber
      | decimal digits => exact ofNumber digits isUnsigned
      | boolean value => cases value <;> exact ofKeyword _ _
      | date value | time value | timestamp value => exact ofKeyword _ _
      | null => exact ofKeyword _ _
  | parameter =>
      refine ⟨fun rest _ => symbol_misses_mark ?_ _⟩
      rcases isSign with rfl | rfl <;> decide
  | nested inner => exact ofOpen _
  | subquery query => exact ofOpen _
  | existsIn query => exact ofKeyword _ _
  | case operand branches otherwise => exact ofKeyword _ _
  | call name args distinct star =>
      obtain ⟨isWord, _⟩ := regular.spelled
      exact ⟨fun rest _ => @symbol_misses_of_isWord (.function name) c isWord noWord _⟩

/-- The sign of a constant is read before the rest of it. -/
theorem symbol_minus_number {text digits : String} (chars : text.toList = '-' :: digits.toList)
    {rest : List Token} (flush : Flush (.number digits :: rest)) :
    symbol '-' (write (.number text :: rest)) = .ok () (write (.number digits :: rest)) := by
  have written : write (.number text :: rest) = '-' :: write (.number digits :: rest) := by
    simp [write_cons, Token.chars, chars]
  have read : Lexer.token (char '-') (write (.number text :: rest)) =
      .ok '-' (write (.number digits :: rest)) := by
    have noSpace : isSpace '-' = false := by decide
    rw [token_apply, written]
    simp only [List.dropWhile_cons, noSpace, Bool.false_eq_true, if_false, char, satisfy,
      beq_self_eq_true, if_true]
    rw [flush]
  exact bind_of_ok read

section Signed

variable (faithful : nested.Faithful n)

include faithful

/-- A constant with a sign is read as the negative of the constant without it. -/
theorem reads_signedLiteral {text digits : String} {inner value : Literal}
    (tokens : value.tokens = [.number text]) (innerTokens : inner.tokens = [.number digits])
    (chars : text.toList = '-' :: digits.toList) (spelled : inner.Spelled)
    (light : weight value.tokens < n + 1) (negative : negated (.literal inner) = .literal value) :
    Reads (signed nested) 22 value.tokens (.literal value) := by
  have innerFits : (Expr.literal inner).Fits n := by
    refine ⟨(regularFrom_literal spelled).1, ?_⟩
    simp only [tokens, weight_cons, Token.chars, chars, List.length_cons, weight_nil] at light
    simp only [Expr.tokens, innerTokens, weight_cons, Token.chars, weight_nil]
    omega
  have innerRead := (faithful.signed (.literal inner) innerFits (by simp [Expr.level])).map negated
  rw [negative, Expr.tokens, innerTokens] at innerRead
  rw [tokens]
  constructor
  intro rest stops
  have flush : Flush (.number digits :: rest) := by
    obtain ⟨token, more, same, opens, _⟩ := Literal.begins spelled
    rw [innerTokens] at same
    cases same
    exact opens.flush rest
  exact (bind_of_ok (optional_of_ok (symbol_minus_number chars flush))).trans
    (innerRead.ok rest stops)

theorem reads_unsigned {e : Expr} (fits : e.Fits (n + 1)) (alone : e.StandsAlone)
    (unsigned : ∀ value, e = .literal value → Unsigned value) :
    Reads (signed nested) 22 e.tokens e :=
  .skip (avoids_sign fits.regular alone unsigned (.inl rfl) 22)
    (.skip (avoids_sign fits.regular alone unsigned (.inr rfl) 22)
      ((reads_primary faithful fits alone unsigned).mono (by decide)))

theorem reads_literalWithSign {value : Literal} (fits : (Expr.literal value).Fits (n + 1)) :
    Reads (signed nested) 22 value.tokens (.literal value) := by
  have spelled : value.Spelled := fits.regular.spelled
  have ofUnsigned : Unsigned value → Reads (signed nested) 22 value.tokens (.literal value) :=
    fun unsigned => reads_unsigned faithful fits (.literal value) (by rintro _ ⟨⟩; exact unsigned)
  cases value with
  | integer value =>
      cases value with
      | ofNat n => exact ofUnsigned (Int.natCast_nonneg n)
      | negSucc n =>
          have chars := toList_toString_negSucc n
          rw [← toList_toString] at chars
          exact @reads_signedLiteral _ _ faithful _ _
            (.integer (n + 1 : Nat)) _ rfl rfl chars spelled
            fits.light rfl
  | decimal digits =>
      rcases spelled.isNumber_or_minus with isNumber | ⟨rest, chars, isDecimal⟩
      · exact ofUnsigned isNumber
      · have split : "-" ++ String.ofList rest = digits := by
          apply String.toList_inj.mp
          simp [chars]
        have innerSpelled : (Literal.decimal (String.ofList rest)).Spelled := by
          simpa [Literal.Spelled] using isDecimal
        refine @reads_signedLiteral _ _ faithful _ _ (.decimal (String.ofList rest)) _ rfl rfl ?_
          innerSpelled fits.light ?_
        · simpa using chars
        · rw [negated, split]
  | string _ | boolean _ | date _ | time _ | timestamp _ | null => exact ofUnsigned trivial

theorem reads_signed {e : Expr} (fits : e.Fits (n + 1)) (tight : 7 ≤ e.level) :
    Reads (signed nested) 22 e.tokens e := by
  rcases Expr.eq_unary_or_standsAlone tight with ⟨op, operand, rfl⟩ | alone
  · have operandFits : operand.Fits n := by
      refine fits.child (by simp +contextual [Expr.parts]) ?_
      have some := op.one_le_length
      rw [Expr.tokens, weight_cons]
      omega
    have grouped : op.level ≤ operand.level := fits.regular.grouped
    cases op with
    | not => contradiction
    | minus =>
        have spelled : negated operand = .unary .minus operand := fits.regular.spelled
        have read := (faithful.signed operand operandFits grouped).map negated
        rw [spelled] at read
        have minus : Reads (optional (symbol '-')) 25 [.mark .minus] (some ()) :=
          (reads_symbol rfl).optional
        exact .bind minus read (operandFits.regular.opens.ends_of_opens 22)
    | plus =>
        have read := (faithful.signed operand operandFits grouped).map (Expr.unary .plus)
        have plus : Reads (optional (symbol '+')) 25 [.mark .plus] (some ()) :=
          (reads_symbol rfl).optional
        refine .skip ⟨fun rest _ => symbol_misses_mark (by decide) _⟩ ?_
        exact .bind plus read (operandFits.regular.opens.ends_of_opens 22)
  · by_cases constant : ∃ value, e = .literal value
    · obtain ⟨value, rfl⟩ := constant
      exact reads_literalWithSign faithful fits
    · exact reads_unsigned faithful fits alone fun value same => absurd ⟨value, same⟩ constant

end Signed

end Expression

end TripleTables.Sql
