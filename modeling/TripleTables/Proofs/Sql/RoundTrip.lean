import TripleTables.Proofs.Sql.Level

/-!
# Reading statements back

Clauses and whole queries are read back from their tokens.  The readers for
nested parts take the text as a clock; a part is lighter than the text before
which it is read is long, so the clock never runs out.  Since everything that is
read is regular, printing what was read and reading it again gives the same
query.
-/

namespace TripleTables.Sql

open Reader Lexer

namespace Clause

/-! ## Items of a select list -/

/-- The reader of a star behind a name. -/
def qualifiedStar : Lexer SelectItem := do
  let name ← objectName
  symbol '.'
  symbol '*'
  return .qualifiedWildcard name

theorem qualifiedStar_misses_of_identifier {s : List Char} (missed : Misses identifier s) :
    Misses qualifiedStar s :=
  (missed.bind _).bind _

/-- A word that no point follows is no name before a star. -/
theorem qualifiedStar_misses_of_isWord {token : Token} (isWord : IsWord token.chars)
    {rest : List Token} (flush : Flush rest) (noPoint : (write rest).head? ≠ some '.') :
    Misses qualifiedStar (write (token :: rest)) := by
  cases reserved : isReserved token.chars with
  | true =>
      exact qualifiedStar_misses_of_identifier (identifier_misses_of_isReserved isWord reserved)
  | false =>
      have read := identifier_of_not_isReserved isWord reserved flush
      have noMore : many (do let _ ← char '.'; identifier) (write rest) = .ok [] (write rest) := by
        have missed : Misses (do let _ ← char '.'; identifier) (write rest) :=
          (char_misses noPoint).bind _
        exact bind_of_ok (repeating_of_rounds (.none [] _) (missed.bind _))
      have name : objectName (write (token :: rest)) =
          .ok [String.ofList token.chars] (write rest) :=
        (bind_of_ok read).trans (bind_of_ok noMore)
      exact .after name ((symbol_misses flush noPoint).bind _)

theorem qualifiedStar_misses_of_startsWith {token : Token}
    (starts : token.StartsWith fun c =>
      isSpace c = false ∧ isWordStart c = false ∧ c ≠ '"' ∧ c ≠ '`') (rest : List Token) :
    Misses qualifiedStar (write (token :: rest)) := by
  obtain ⟨c, more, chars, noSpace, noWord, noQuote, noBackquote⟩ := starts
  apply qualifiedStar_misses_of_identifier
  apply token_misses (flush_of_startsWith ⟨c, more, chars, noSpace⟩)
  rw [write_cons, chars]
  apply misses_firstOf (word_misses noWord _)
  simp only [List.mem_cons, List.not_mem_nil, or_false, forall_eq_or_imp, forall_eq]
  exact ⟨quoted_misses noQuote _, quoted_misses noBackquote _⟩

/-- Of the first tokens of expressions, only a name in quotes may stand before a
star. -/
theorem qualifiedStar_misses_of_opens {token : Token} (opens : token.Opens)
    (noName : ∀ value, token ≠ .name value) {rest : List Token} (flush : Flush rest)
    (noPoint : (write rest).head? ≠ some '.') : Misses qualifiedStar (write (token :: rest)) := by
  rcases opens.cases with ⟨word, _, rfl⟩ | ⟨word, rfl, isWord, _⟩ | ⟨value, rfl⟩ |
    ⟨c, more, chars, noSpace, noWord, _, noQuotes⟩
  · exact @qualifiedStar_misses_of_isWord (.keyword word) word.isWord rest flush noPoint
  · exact @qualifiedStar_misses_of_isWord (.function word) isWord rest flush noPoint
  · exact absurd rfl (noName value)
  · exact qualifiedStar_misses_of_startsWith ⟨c, more, chars, noSpace, noWord, noQuotes⟩ rest

theorem qualifiedStar_misses_literal {value : Literal} (spelled : value.Spelled) {rest : List Token}
    (stops : Stops 23 rest) : Misses qualifiedStar (write (value.tokens ++ rest)) := by
  have following : ∀ string, Flush (.string string :: rest) ∧
      (write (.string string :: rest)).head? ≠ some '.' :=
    fun string => ⟨flush_string string rest, by simp [write_cons, Token.chars, inQuotes]⟩
  obtain ⟨token, more, tokens, opens, _⟩ := Literal.begins spelled
  have noName : ∀ name, token ≠ .name name := by
    rintro name rfl
    cases value with
    | boolean value => cases value <;> cases tokens
    | _ => cases tokens
  cases value with
  | date value | time value | timestamp value =>
      cases tokens
      exact qualifiedStar_misses_of_opens opens noName (following value).1 (following value).2
  | boolean value =>
      cases value <;> cases tokens <;>
        exact qualifiedStar_misses_of_opens opens noName stops.1 stops.head?_ne_dot
  | string _ | integer _ | decimal _ | null =>
      cases tokens
      exact qualifiedStar_misses_of_opens opens noName stops.1 stops.head?_ne_dot

theorem qualifiedStar_misses_keyword {word : Keyword} (noName : word ∉ Keyword.callable)
    (rest : List Token) : Misses qualifiedStar (write (.keyword word :: rest)) :=
  qualifiedStar_misses_of_identifier (@identifier_misses_of_isReserved (.keyword word) word.isWord
    rest (Keyword.isReserved_eq_true noName))

/-- An expression that no point follows is no name before a star. -/
theorem qualifiedStar_misses (e : Expr) (regular : e.Regular) :
    ∀ rest, Stops 23 rest → Misses qualifiedStar (write (e.tokens ++ rest)) := by
  induction e, regular using Expr.spine_induction with
  | leftmost e regular isLeftmost =>
      intro rest stops
      cases e with
      | column name =>
          exact .after ((reads_objectName regular.spelled).ok rest stops)
            ((symbol_misses stops.1 stops.head?_ne_dot).bind _)
      | literal value => exact qualifiedStar_misses_literal regular.spelled stops
      | parameter => exact qualifiedStar_misses_of_startsWith ⟨'?', _, rfl, by decide⟩ rest
      | unary op operand =>
          cases op with
          | not => exact qualifiedStar_misses_keyword (by decide) _
          | minus => exact qualifiedStar_misses_of_startsWith ⟨'-', _, rfl, by decide⟩ _
          | plus => exact qualifiedStar_misses_of_startsWith ⟨'+', _, rfl, by decide⟩ _
      | nested inner => exact qualifiedStar_misses_of_startsWith ⟨'(', _, rfl, by decide⟩ _
      | call name args distinct star =>
          obtain ⟨isWord, _⟩ := regular.spelled
          exact @qualifiedStar_misses_of_isWord (.function name) isWord _
            (flush_mark .openBracket _)
            (by simp [inBrackets, write_cons, Token.chars, Mark.chars])
      | existsIn query => exact qualifiedStar_misses_keyword (by decide) _
      | subquery query => exact qualifiedStar_misses_of_startsWith ⟨'(', _, rfl, by decide⟩ _
      | case operand branches otherwise =>
          exact qualifiedStar_misses_keyword (by decide) _
      | binary _ _ _ | like _ _ _ | between _ _ _ _ | inList _ _ _ | inQuery _ _ _ | isNull _ _
      | compareAny _ _ _ | compareAll _ _ _ => exact isLeftmost.elim
  | extend e left suffix _ grown ih =>
      intro rest stops
      rw [grown.tokens, List.append_assoc]
      exact ih _ (grown.begins.ends_of_separates.stops rest stops)

section Parts

variable {nested : Nested} {n : Nat}

theorem ends_asName {rank : Nat} (above : 11 < rank) (name : Option String) :
    Ends rank 11 (asNameTokens name) :=
  .led above (Nat.le_of_lt above) _

/-- The point before a star does not belong to the name. -/
theorem reads_qualifiedStar {name : ObjectName} (some : name ≠ []) :
    Reads qualifiedStar 25 (name.tokens ++ [.mark .dot, .mark .star])
      (.qualifiedWildcard name) := by
  constructor
  intro rest stops
  have noPart : Misses (do let _ ← char '.'; identifier)
      (write (.mark .dot :: .mark .star :: rest)) := by
    refine .after (point_write _) ?_
    rw [Misses, identifier, token_gap _ (flush_mark .star rest)]
    exact identifier_misses_mark .star rest
  have ends : Stops 24 (.mark .dot :: .mark .star :: rest) :=
    stops_cons.mpr ⟨flush_mark .dot _, by decide⟩
  have starRead :
      Reads (do symbol '.'; symbol '*'; return .qualifiedWildcard name : Lexer SelectItem)
      25 [.mark .dot, .mark .star] (.qualifiedWildcard name) :=
    .symbol rfl (.symbol rfl (.pure _) (.nil (Nat.le_refl 25))) (.mark (by decide) _)
  rw [List.append_assoc]
  exact (bind_of_ok (objectName_write some ends noPart)).trans (starRead.ok rest stops)

theorem begins_objectName {name : ObjectName} (some : name ≠ []) :
    Begins (fun token => ∃ value, token = .name value) name.tokens := by
  cases name with
  | nil => contradiction
  | cons part rest => exact ⟨.name part, _, rfl, part, rfl⟩

section Names

variable {tokens : List Token} (begins : Begins (fun token => ∃ value, token = .name value) tokens)

include begins

theorem ends_of_name (low : Nat) : Ends 25 low tokens := by
  apply begins.ends
  rintro token ⟨value, rfl⟩ rest
  exact stops_of_flush (flush_name value rest)

theorem avoids_symbol_of_name {c : Char} (noQuote : c ≠ '"') (rank : Nat) :
    Avoids (symbol c) rank tokens := by
  apply begins.avoids
  rintro token ⟨value, rfl⟩ rest
  apply symbol_misses (flush_name value rest)
  simpa [write_cons, Token.chars, inQuotes] using noQuote.symm

end Names

variable (faithful : nested.Faithful n)

include faithful

theorem reads_selectItem {item : SelectItem} (regular : Part.Every Part.Regular item.parts)
    (light : weight item.tokens < n + 1) : Reads (selectItem nested) 11 item.tokens item := by
  cases item with
  | wildcard => exact .orElse_left (.symbol rfl (.pure SelectItem.wildcard) (.nil (by decide))) _
  | qualifiedWildcard name =>
      have some : name ≠ [] := (Part.every_cons.mp regular).1
      have noStar : Avoids (symbol '*') 11 (name.tokens ++ [.mark .dot, .mark .star]) :=
        avoids_symbol_of_name ((begins_objectName some).append _) (by decide) 11
      exact .orElse_right (noStar.bind _)
        (.orElse_left ((reads_qualifiedStar some).mono (by decide)) _)
  | expr e name =>
      have eFits : e.Fits (n + 1) := by
        simp only [SelectItem.tokens, weight_append] at light
        exact ⟨(Part.every_cons.mp regular).2, by omega⟩
      have opens := eFits.regular.opens.append (asNameTokens name)
      have noStar : Avoids (symbol '*') 11 (e.tokens ++ asNameTokens name) :=
        opens.avoids fun _ opens rest => opens.star_misses rest
      have noName : Avoids qualifiedStar 11 (e.tokens ++ asNameTokens name) := by
        constructor
        intro rest stops
        rw [List.append_assoc]
        exact qualifiedStar_misses e eFits.regular _
          ((ends_asName (by decide) name).stops rest stops)
      refine .orElse_right (noStar.bind _) (.orElse_right noName ?_)
      exact .bind (Expression.reads_disjunction faithful eFits)
        ((reads_asName name).map (SelectItem.expr e)) (ends_asName (by decide) name)

omit faithful in
/-- An item starts with a star or like an expression. -/
theorem begins_selectItem {item : SelectItem} (regular : Part.Every Part.Regular item.parts) :
    Begins (fun token => token.Opens ∨ token = .mark .star) item.tokens := by
  cases item with
  | wildcard => exact ⟨.mark .star, [], rfl, .inr rfl⟩
  | qualifiedWildcard name =>
      have begins := begins_objectName (Part.every_cons.mp regular).1
      apply (begins.append _).mono
      rintro token ⟨value, rfl⟩
      exact .inl trivial
  | expr e name =>
      have eRegular : e.Regular := (Part.every_cons.mp regular).2
      exact (eRegular.opens.append _).mono fun _ => .inl

omit faithful in
theorem ends_of_item {tokens : List Token}
    (begins : Begins (fun token => token.Opens ∨ token = .mark .star) tokens) (low : Nat) :
    Ends 25 low tokens := by
  apply begins.ends
  rintro token (opens | rfl) rest
  · exact stops_of_flush (opens.flush rest)
  · exact stops_of_flush (flush_mark .star rest)

omit faithful in
theorem avoids_keyword_of_item {tokens : List Token}
    (begins : Begins (fun token => token.Opens ∨ token = .mark .star) tokens) (word : Keyword)
    (other : word ∉ Keyword.opening)
    (noName : word ∉ Keyword.callable) (rank : Nat) :
    Avoids (keyword word.text) rank tokens := by
  apply begins.avoids
  rintro token (opens | rfl) rest
  · exact opens.keyword_misses rest word (fun same => other (by rwa [same] at opens)) noName
  · exact @keyword_misses_of_startsWith word (.mark .star) rest ⟨'*', [], rfl, by decide⟩

/-! ## Sources -/

theorem reads_source {source : Source} (regular : Part.Every Part.Regular source.parts)
    (light : weight source.tokens < n + 1) :
    Reads (Clause.source nested) 11 source.tokens source := by
  cases source with
  | table name asName =>
      have some : name ≠ [] := (Part.every_cons.mp regular).1
      have noQuery : Avoids (symbol '(') 11 (name.tokens ++ asNameTokens asName) :=
        avoids_symbol_of_name ((begins_objectName some).append _) (by decide) 11
      refine .orElse_right ((noQuery.bind _).bind _) ?_
      exact .bind (reads_objectName some) ((reads_asName asName).map (Source.table name))
        (ends_asName (by decide) asName)
  | derived query asName =>
      have queryFits : query.Fits n := by
        simp only [Source.tokens, weight_append, weight_inBrackets] at light
        exact ⟨(Part.every_cons.mp regular).2, by omega⟩
      exact .orElse_left (.bind (Expression.reads_bracketedQuery faithful queryFits)
        ((reads_asName asName).map (Source.derived query)) (ends_asName (by decide) asName)) _

omit faithful in
theorem ends_source {source : Source} (regular : Part.Every Part.Regular source.parts)
    (tokens : List Token) (low : Nat) : Ends 25 low (source.tokens ++ tokens) := by
  cases source with
  | table name asName =>
      have begins := (begins_objectName (Part.every_cons.mp regular).1).append (asNameTokens asName)
      exact ends_of_name (begins.append tokens) low
  | derived query asName => exact .mark (by decide) _

/-! ## Joins -/

omit faithful in
theorem reads_joinKind (kind : JoinKind) :
    Reads joinKind 25 (kind.words.map .keyword ++ [.keyword .join]) kind := by
  have join : ∀ found : Option JoinKind,
      Reads (do keyword "JOIN"; return found.getD .inner : Lexer JoinKind) 25 [.keyword .join]
        (found.getD .inner) :=
    fun found => .keyword .join (.pure _) (.nil (Nat.le_refl 25))
  have outer : ∀ (word : Keyword) (kind : JoinKind),
      Reads (outerJoin word.text kind) 25 [.keyword word, .keyword .outer] kind :=
    fun word kind => .keyword word (.bind_last (reads_keyword .outer).optional fun _ => rfl)
      (.keyword (by decide) [])
  cases kind with
  | inner =>
      have inner : Reads (do keyword "INNER"; return .inner : Lexer JoinKind) 25 [.keyword .inner]
          .inner :=
        .keyword .inner (.pure _) (.nil (Nat.le_refl 25))
      exact .bind (inner.firstOf_head _).optional (join (some .inner)) (.keyword (by decide) [])
  | leftOuter =>
      refine .bind (.optional (.orElse_right ?_ (.firstOf_head (outer .left .leftOuter) _)))
        (join (some .leftOuter)) (.keyword (by decide) [])
      exact (Avoids.keyword_of_ne .inner (by decide) _).bind _
  | rightOuter =>
      refine .bind (.optional (.orElse_right ?_ (.orElse_right ?_
        (.firstOf_head (outer .right .rightOuter) _)))) (join (some .rightOuter))
          (.keyword (by decide) [])
      · exact (Avoids.keyword_of_ne .inner (by decide) _).bind _
      · exact (Avoids.keyword_of_ne .left (by decide) _).bind _
  | fullOuter =>
      refine .bind (.optional (.orElse_right ?_ (.orElse_right ?_ (.orElse_right ?_
        (outer .full .fullOuter))))) (join (some .fullOuter)) (.keyword (by decide) [])
      · exact (Avoids.keyword_of_ne .inner (by decide) _).bind _
      · exact (Avoids.keyword_of_ne .left (by decide) _).bind _
      · exact (Avoids.keyword_of_ne .right (by decide) _).bind _

/-- An expression after a keyword, or nothing. -/
theorem reads_condition {word : Keyword} {condition : Option Expr}
    (fits : ∀ e ∈ condition, e.Fits (n + 1)) (low : word.rank ≤ 15) :
    Reads (optional (do keyword word.text; expression nested)) word.rank
      (led [word] (condition.map Expr.tokens)) condition := by
  cases condition with
  | none => exact .absent ((Avoids.keyword word).bind _)
  | some e =>
      have eFits := fits e rfl
      exact .optional (.keyword word ((Expression.reads_disjunction faithful eFits).mono low)
        (eFits.regular.opens.ends_of_opens _))

theorem reads_join {join : Join} (regular : Part.Every Part.Regular join.parts)
    (light : weight join.tokens < n + 1) : Reads (Clause.join nested) 10 join.tokens join := by
  obtain ⟨source, rule⟩ := join
  obtain ⟨sourceRegular, ruleRegular⟩ := Part.every_append.mp regular
  cases rule with
  | cross =>
      have sourceLight : weight source.tokens < n + 1 := by
        simp only [Join.tokens, weight_cons] at light
        omega
      have cross :
          Reads (do keyword "CROSS"; keyword "JOIN") 25 [.keyword .cross, .keyword .join] () :=
        .keyword .cross (reads_keyword .join) (.keyword (by decide) [])
      have sourceRead := (reads_source faithful sourceRegular sourceLight).map (Join.mk · .cross)
      have ends : Ends 25 10 source.tokens := by simpa using ends_source sourceRegular [] 10
      exact .bind cross.optional (sourceRead.mono (by decide)) ends
  | on kind condition =>
      have tokens : (Join.mk source (.on kind condition)).tokens =
          (kind.words.map .keyword ++ [.keyword .join]) ++
            (source.tokens ++ led [.on] (condition.map Expr.tokens)) := by
        simp [Join.tokens]
      rw [tokens] at light ⊢
      simp only [weight_append] at light
      have conditionFits : ∀ e ∈ condition, e.Fits (n + 1) := by
        rintro e ⟨⟩
        have inside := weight_le_led [.on] e.tokens
        rw [Option.map_some] at light
        exact ⟨(Expr.every_optionParts (some e)).mp ruleRegular e rfl, by omega⟩
      have conditionRead : Reads (optional (joinCondition nested)) 10
          (led [.on] (condition.map Expr.tokens)) condition :=
        @reads_condition _ _ faithful .on condition conditionFits (by decide)
      have noCross : Avoids (do keyword "CROSS"; keyword "JOIN") 10
          ((kind.words.map .keyword ++ [.keyword .join]) ++
            (source.tokens ++ led [.on] (condition.map Expr.tokens))) := by
        cases kind <;> exact (Avoids.keyword_of_ne .cross (by decide) _).bind _
      refine .skip noCross (.bind (reads_joinKind kind) ?_ (ends_source sourceRegular _ 10))
      exact .bind (reads_source faithful sourceRegular (by omega))
        (conditionRead.map (Join.mk source <| .on kind ·)) (.led (by decide) (by decide) _)

omit faithful in
theorem avoids_join : Avoids (Clause.join nested) 9 [] := by
  have noKeyword : ∀ word : Keyword, word.rank = 9 → Avoids (keyword word.text) 9 [] := by
    intro word rank
    rw [← rank]
    exact .keyword word
  refine .skip ((noKeyword .cross rfl).bind _) (.bind (.skip (.firstOf ?_) ?_) _)
  · simp only [List.mem_cons, List.not_mem_nil, or_false, forall_eq_or_imp, forall_eq]
    exact ⟨(noKeyword .inner rfl).bind _, (noKeyword .left rfl).bind _,
      (noKeyword .right rfl).bind _,
      (noKeyword .full rfl).bind _⟩
  · exact (noKeyword .join rfl).bind _

omit faithful in
theorem begins_join : (join : Join) → Begins (Token.Separates 10) join.tokens
  | ⟨_, .cross⟩ => ⟨.keyword .cross, _, rfl, Token.separates_keyword (by decide)⟩
  | ⟨_, .on .inner _⟩ => ⟨.keyword .inner, _, rfl, Token.separates_keyword (by decide)⟩
  | ⟨_, .on .leftOuter _⟩ => ⟨.keyword .left, _, rfl, Token.separates_keyword (by decide)⟩
  | ⟨_, .on .rightOuter _⟩ => ⟨.keyword .right, _, rfl, Token.separates_keyword (by decide)⟩
  | ⟨_, .on .fullOuter _⟩ => ⟨.keyword .full, _, rfl, Token.separates_keyword (by decide)⟩

theorem reads_sourceWithJoins {source : SourceWithJoins}
    (regular : Part.Every Part.Regular source.parts) (light : weight source.tokens < n + 1) :
    Reads (Clause.sourceWithJoins nested) 9 source.tokens source := by
  obtain ⟨source, joins⟩ := source
  obtain ⟨sourceRegular, joinsRegular⟩ := Part.every_append.mp regular
  rw [Join.listParts_eq, Part.every_flatMap] at joinsRegular
  simp only [SourceWithJoins.tokens, Join.listTokens_eq, weight_append] at light ⊢
  have each : ∀ join ∈ joins, Reads (Clause.join nested) 10 join.tokens join := by
    intro join member
    have inside := weight_le_flatMap Join.tokens member
    exact reads_join faithful (joinsRegular join member) (by omega)
  have begins : ∀ join ∈ joins, Begins (Token.Separates 10) join.tokens :=
    fun join _ => begins_join join
  have joinsRead : Reads (many (Clause.join nested)) 9 (joins.flatMap Join.tokens) joins :=
    .many (by decide) each begins avoids_join
  exact .bind (reads_source faithful sourceRegular (by omega))
    (joinsRead.map (SourceWithJoins.mk source))
    ⟨fun rest stops => (stops_flatMap begins (stops.mono (by decide))).mono (by decide)⟩

/-! ## Clauses -/

section Clauses

omit faithful

variable {α : Type} {keywords : Lexer Unit} {body : Lexer α} {rank : Nat}

theorem avoids_opening {p : Lexer α} {tokens : List Token} (avoids : Avoids p rank tokens) :
    Avoids (opening p) rank tokens := by
  constructor
  intro rest stops
  obtain ⟨place, missed⟩ := avoids.misses rest stops
  exact ⟨_, by rw [opening, mapErrors, missed]⟩

theorem avoids_asPart {p : ClauseReader α} {tokens : List Token} (avoids : Avoids p rank tokens) :
    Avoids (asPart p) rank tokens := by
  constructor
  intro rest stops
  obtain ⟨error, missed⟩ := avoids.misses rest stops
  exact ⟨error.place, by rw [asPart, mapErrors, missed]⟩

theorem reads_clause {context : Context} {words tokens : List Token} {value : α}
    (keywordsRead : Reads keywords 25 words ()) (bodyRead : Reads body rank tokens value)
    (ends : Ends 25 rank tokens) :
    Reads (clause context keywords body) rank (words ++ tokens) value :=
  .bind (.mapErrors keywordsRead) (.mapErrors bodyRead) ends

variable {context : Context} {words : List Keyword} {phrase : α → List Token}
variable (keywordsRead : Reads keywords 25 (words.map .keyword) ())
  (absent : Avoids keywords rank [])

include keywordsRead absent

theorem reads_optionalClause {value : Option α}
    (bodyRead : ∀ v ∈ value, Reads body rank (phrase v) v)
    (ends : ∀ v ∈ value, Ends 25 rank (phrase v)) :
    Reads (optional (clause context keywords body)) rank (led words (value.map phrase)) value := by
  cases value with
  | none => exact .absent ((avoids_opening absent).bind _)
  | some value => exact .optional (reads_clause keywordsRead (bodyRead value rfl) (ends value rfl))

/-- A clause with a list is absent if the list is empty. -/
theorem reads_optionalList {p : Lexer α} {values : List α} {itemRank : Nat} (low : rank ≤ 8)
    (above : 9 ≤ itemRank) (each : ∀ value ∈ values, Reads p itemRank (phrase value) value)
    (ends : ∀ value ∈ values, ∀ tokens low, Ends 25 low (phrase value ++ tokens)) :
    ∃ found : Option (List α), found.getD [] = values ∧
      Reads (optional (clause context keywords (separatedList1 (symbol ',') p))) rank
        (ledList words (values.map phrase)) found := by
  cases values with
  | nil => exact ⟨none, rfl, .absent ((avoids_opening absent).bind _)⟩
  | cons first rest =>
      have flush : ∀ value ∈ first :: rest, Ends 25 itemRank (phrase value) := by
        intro value member
        simpa using ends value member [] itemRank
      have listRead := Reads.commaList (List.cons_ne_nil first rest) above each flush
      exact ⟨some (first :: rest), rfl, .optional
        (reads_clause keywordsRead (listRead.mono low) (ends first (by simp) _ rank))⟩

end Clauses

theorem reads_orderItem {key : OrderItem} (regular : Part.Every Part.Regular key.parts)
    (light : weight key.tokens < n + 1) : Reads (orderItem nested) 25 key.tokens key := by
  obtain ⟨e, ascending⟩ := key
  have eFits : e.Fits (n + 1) := by
    simp only [OrderItem.tokens, weight_append] at light
    exact ⟨regular, by omega⟩
  have atEnd : Ends 25 25 [] := .nil (Nat.le_refl 25)
  cases ascending with
  | true =>
      have direction :
          Reads (firstOf (do keyword "ASC"; return true) [do keyword "DESC"; return false])
          25 [.keyword .asc] true :=
        .orElse_left (.keyword .asc (.pure true) atEnd) _
      exact .bind (Expression.reads_disjunction faithful eFits)
        (.bind_last direction.optional fun _ => rfl) (.keyword (by decide) [])
  | false =>
      have direction :
          Reads (firstOf (do keyword "ASC"; return true) [do keyword "DESC"; return false])
          25 [.keyword .desc] false :=
        .orElse_right ((Avoids.keyword_of_ne .asc (by decide) []).bind _)
          (.keyword .desc (.pure false) atEnd)
      exact .bind (Expression.reads_disjunction faithful eFits)
        (.bind_last direction.optional fun _ => rfl) (.keyword (by decide) [])

omit faithful in
theorem reads_rows (context : Context) (word : Keyword) {rows : Option Nat}
    (inRange : ∀ found ∈ rows, found ≤ maxRows) :
    Reads (optional (clause context (keyword word.text) rowCount)) word.rank (rowsTokens word rows)
      rows := by
  refine reads_optionalClause (reads_keyword word) (.keyword word) ?_ ?_
  · intro found member
    have read : Reads rowCount 25 [.number (toString found)] found :=
      ⟨fun rest stops => rowCount_write (inRange found member) stops.1⟩
    exact read.mono (Nat.le_of_lt (Token.keyword word).rank_lt)
  · intro found member
    have isNumber : IsNumber (toString found).toList := by
      rw [toList_toString]
      exact (isDigits_toDigits found).isNumber
    exact ⟨fun rest _ => stops_of_flush (flush_number isNumber rest)⟩

omit faithful in
theorem reads_page {limit offset : Option Nat} (limitInRange : ∀ rows ∈ limit, rows ≤ maxRows)
    (offsetInRange : ∀ rows ∈ offset, rows ≤ maxRows) :
    Reads page 1 (rowsTokens .limit limit ++ rowsTokens .offset offset) (limit, offset) := by
  have limitRead : Reads (optional limitClause) 2 (rowsTokens .limit limit) limit :=
    reads_rows .limitClause .limit limitInRange
  have offsetRead : Reads (optional offsetClause) 1 (rowsTokens .offset offset) offset :=
    reads_rows .offsetClause .offset offsetInRange
  have noLimit : Avoids limitClause 1 [] :=
    .bind (avoids_opening ((Avoids.keyword .limit).mono (by decide))) _
  cases limit with
  | some rows =>
      exact .bind limitRead (offsetRead.map (some rows, ·)) (.led (by decide) (by decide) _)
  | none =>
      have offsetFirst : Avoids limitClause 1 (rowsTokens .offset offset) := by
        cases offset with
        | none => exact noLimit
        | some rows => exact .bind (avoids_opening (.keyword_of_ne .limit (by decide) _)) _
      have limitAbsent : Reads (do return (← optional limitClause, offset)) 1 [] (none, offset) :=
        (Reads.absent noLimit).map (·, offset)
      have offsetThenLimit : Reads (do
            let offset ← optional offsetClause
            return (← optional limitClause, offset)) 1
          (rowsTokens .offset offset ++ []) (none, offset) :=
        .bind offsetRead limitAbsent (.nil (by decide))
      rw [List.append_nil] at offsetThenLimit
      exact .skip offsetFirst offsetThenLimit

theorem reads_exprClause (context : Context) (word : Keyword) {condition : Option Expr}
    (fits : ∀ e ∈ condition, e.Fits (n + 1)) (low : word.rank ≤ 15) :
    Reads (optional (clause context (keyword word.text) (expression nested))) word.rank
      (led [word] (condition.map Expr.tokens)) condition :=
  reads_optionalClause (reads_keyword word) (.keyword word)
    (fun e member => (Expression.reads_disjunction faithful (fits e member)).mono low)
    fun e member => (fits e member).regular.opens.ends_of_opens _

theorem reads_fromClause {sources : List SourceWithJoins}
    (regular : ∀ source ∈ sources, Part.Every Part.Regular source.parts)
    (light : ∀ source ∈ sources, weight source.tokens < n + 1) :
    ∃ found : Option (List SourceWithJoins), found.getD [] = sources ∧
      Reads (optional (fromClause nested)) 7
        (ledList [.from] (sources.map SourceWithJoins.tokens)) found := by
  refine reads_optionalList (reads_keyword .from) (.keyword .from) (by decide) (Nat.le_refl 9)
    (fun source member => reads_sourceWithJoins faithful (regular source member)
      (light source member))
    ?_
  rintro ⟨source, joins⟩ member tokens low
  rw [SourceWithJoins.tokens, List.append_assoc]
  exact ends_source (Part.every_append.mp (regular _ member)).1 _ low

theorem reads_groupByClause {groupBy : List Expr} (fits : ∀ e ∈ groupBy, e.Fits (n + 1)) :
    ∃ found : Option (List Expr), found.getD [] = groupBy ∧
      Reads (optional (groupByClause nested)) 5
        (ledList [.group, .by] (groupBy.map Expr.tokens)) found :=
  reads_optionalList (.keyword .group (reads_keyword .by) (.keyword (by decide) []))
    ((Avoids.keyword .group).bind _) (by decide) (by decide)
    (fun e member => Expression.reads_disjunction faithful (fits e member))
    fun e member tokens low => ((fits e member).regular.opens.append tokens).ends_of_opens low

theorem reads_orderByClause {orderBy : List OrderItem}
    (regular : ∀ key ∈ orderBy, Part.Every Part.Regular key.parts)
    (light : ∀ key ∈ orderBy, weight key.tokens < n + 1) :
    ∃ found : Option (List OrderItem), found.getD [] = orderBy ∧
      Reads (optional (orderByClause nested)) 3
        (ledList [.order, .by] (orderBy.map OrderItem.tokens)) found := by
  refine reads_optionalList (.keyword .order (reads_keyword .by) (.keyword (by decide) []))
    ((Avoids.keyword .order).bind _) (by decide) (by decide)
    (fun key member => reads_orderItem faithful (regular key member) (light key member)) ?_
  rintro ⟨e, ascending⟩ member tokens low
  have eRegular : e.Regular := regular _ member
  exact ((eRegular.opens.append _).append tokens).ends_of_opens low

theorem reads_selectClause {items : List SelectItem} (some : items ≠ [])
    (regular : ∀ item ∈ items, Part.Every Part.Regular item.parts)
    (light : ∀ item ∈ items, weight item.tokens < n + 1) (distinct : Bool) :
    Reads (selectClause nested) 8
      (.keyword .select :: (flagged distinct .distinct ++
        listed (.mark .comma) (items.map SelectItem.tokens))) (distinct, items) := by
  have itemsRead :
      Reads (committed .selectClause (separatedList1 (symbol ',') (selectItem nested))) 8
      (listed (.mark .comma) (items.map SelectItem.tokens)) items :=
    .mapErrors (.commaList some (by decide)
      (fun item member => reads_selectItem faithful (regular item member) (light item member))
      fun item member => ends_of_item (begins_selectItem (regular item member)) 11)
  have begins : Begins (fun token => token.Opens ∨ token = .mark .star)
      (listed (.mark .comma) (items.map SelectItem.tokens)) := by
    cases items with
    | nil => contradiction
    | cons first rest => exact (begins_selectItem (regular first (by simp))).append _
  have select : Reads (opening (keyword "SELECT")) 25 [.keyword .select] () :=
    .mapErrors (reads_keyword .select)
  refine .bind select ?_ (.flagged (by decide) (ends_of_item begins 8))
  cases distinct with
  | true =>
      have distinctRead : Reads (opening distinctness) 25 [.keyword .distinct] true :=
        .mapErrors (.bind_last (.optional (.orElse_left
          (.keyword .distinct (.pure true) (.nil (Nat.le_refl 25))) _)) fun _ => rfl)
      exact .bind distinctRead (itemsRead.map (true, ·)) (ends_of_item begins 8)
  | false =>
      have noFlag : Avoids (firstOf (do keyword "DISTINCT"; return true)
          [do keyword "ALL"; return false]) 8
          (listed (.mark .comma) (items.map SelectItem.tokens)) := by
        apply Avoids.firstOf
        simp only [List.mem_cons, List.not_mem_nil, or_false, forall_eq_or_imp, forall_eq]
        exact ⟨(avoids_keyword_of_item begins .distinct (by decide) (by decide) 8).bind _,
          (avoids_keyword_of_item begins .all (by decide) (by decide) 8).bind _⟩
      refine .pass (fun rest stops => ?_) (itemsRead.map (false, ·))
      have allRows :
          distinctness (write (listed (.mark .comma) (items.map SelectItem.tokens) ++ rest)) =
          .ok false (write (listed (.mark .comma) (items.map SelectItem.tokens) ++ rest)) :=
        bind_of_ok (optional_of_misses (noFlag.misses rest stops))
      exact mapErrors_of_ok allRows _ _

/-! ## Queries -/

theorem reads_query {query : Query} (fits : query.Fits (n + 1)) :
    Reads (Clause.query nested) 1 query.tokens query := by
  obtain ⟨distinct, items, sources, condition, groupBy, having, orderBy, limit, offset⟩ := query
  obtain ⟨regular, light⟩ := fits
  simp only [Query.Regular, Query.parts, Part.every_cons, Part.every_append, Expr.every_optionParts,
    Expr.listParts_eq, SelectItem.listParts_eq, SourceWithJoins.listParts_eq,
    OrderItem.listParts_eq, Part.every_flatMap] at regular
  obtain ⟨⟨some, limitInRange, offsetInRange⟩, itemsRegular, sourcesRegular, conditionRegular,
    groupByRegular, havingRegular, orderByRegular⟩ := regular
  simp only [Query.tokens, Expr.optionTokens_eq, Expr.listTokens_eq, SelectItem.listTokens_eq,
    SourceWithJoins.listTokens_eq, OrderItem.listTokens_eq, weight_cons, weight_append] at light ⊢
  have itemsLight : ∀ item ∈ items, weight item.tokens < n + 1 := by
    intro item member
    have inside := weight_le_listed (.mark .comma) SelectItem.tokens member
    omega
  have sourcesLight : ∀ source ∈ sources, weight source.tokens < n + 1 := by
    intro source member
    have inside := weight_le_ledList [.from] SourceWithJoins.tokens member
    omega
  have groupByFits : ∀ e ∈ groupBy, e.Fits (n + 1) := by
    intro e member
    have inside := weight_le_ledList [.group, .by] Expr.tokens member
    exact ⟨groupByRegular e member, by omega⟩
  have orderByLight : ∀ key ∈ orderBy, weight key.tokens < n + 1 := by
    intro key member
    have inside := weight_le_ledList [.order, .by] OrderItem.tokens member
    omega
  have conditionFits : ∀ e ∈ condition, e.Fits (n + 1) := by
    rintro e ⟨⟩
    have inside := weight_le_led [.where] e.tokens
    rw [Option.map_some] at light
    exact ⟨conditionRegular e rfl, by omega⟩
  have havingFits : ∀ e ∈ having, e.Fits (n + 1) := by
    rintro e ⟨⟩
    have inside := weight_le_led [.having] e.tokens
    rw [Option.map_some] at light
    exact ⟨havingRegular e rfl, by omega⟩
  -- The clauses stand in falling order of rank, so each ends the one before it.
  have selectRead := reads_selectClause faithful some itemsRegular itemsLight distinct
  obtain ⟨sourcesFound, rfl, sourcesRead⟩ := reads_fromClause faithful sourcesRegular sourcesLight
  have conditionRead := reads_exprClause faithful .whereClause .where conditionFits (by decide)
  obtain ⟨groupByFound, rfl, groupByRead⟩ := reads_groupByClause faithful groupByFits
  have havingRead := reads_exprClause faithful .havingClause .having havingFits (by decide)
  obtain ⟨orderByFound, rfl, orderByRead⟩ :=
    reads_orderByClause faithful orderByRegular orderByLight
  have pageRead := reads_page limitInRange offsetInRange
  have limitEnds : Ends 3 2 (rowsTokens .limit limit) := .led (by decide) (by decide) _
  have pageEnds : Ends 3 1 (rowsTokens .limit limit ++ rowsTokens .offset offset) :=
    limitEnds.append (.led (by decide) (by decide) _)
  have orderEnds : Ends 4 3 (ledList [.order, .by] ((orderByFound.getD []).map OrderItem.tokens)) :=
    .ledList (by decide) (by decide) _
  have havingEnds : Ends 5 4 (led [.having] (having.map Expr.tokens)) :=
    .led (by decide) (by decide) _
  have groupEnds : Ends 6 5 (ledList [.group, .by] ((groupByFound.getD []).map Expr.tokens)) :=
    .ledList (by decide) (by decide) _
  have whereEnds : Ends 7 6 (led [.where] (condition.map Expr.tokens)) :=
    .led (by decide) (by decide) _
  have fromEnds : Ends 8 7 (ledList [.from] ((sourcesFound.getD []).map SourceWithJoins.tokens)) :=
    .ledList (by decide) (by decide) _
  have afterHaving := orderEnds.append pageEnds
  have afterGroup := havingEnds.append afterHaving
  have afterWhere := groupEnds.append afterGroup
  have afterFrom := whereEnds.append afterWhere
  rw [← List.append_assoc, ← List.cons_append]
  exact .bind selectRead (.bind sourcesRead (.bind conditionRead (.bind groupByRead
    (.bind havingRead (.bind orderByRead (.bind_last pageRead fun _ => rfl) pageEnds) afterHaving)
    afterGroup) afterWhere) afterFrom) (fromEnds.append afterFrom)

end Parts

end Clause

/-! ## Whole texts -/

/-- An expression is not read where a bracket closes. -/
theorem Expression.avoids_disjunction (nested : Nested) :
    Avoids (Expression.disjunction nested) 1 [] := by
  constructor
  intro rest stops
  rcases stops.cases (by decide) with rfl | ⟨symbol, more, rfl, lower⟩ | ⟨word, more, rfl, lower⟩
  · exact ⟨_, rfl⟩
  · cases symbol <;> first
      | exact absurd lower (by decide)
      | cases more <;> exact ⟨_, rfl⟩
  · cases word <;> exact absurd lower (by decide)

/-- The readers with a clock read back everything that is lighter than the clock
is long. -/
theorem Nested.faithful_within (clock : List Char) :
    (Nested.within clock).Faithful clock.length := by
  induction clock with
  | nil =>
      have noExpr : ∀ e : Expr, ¬ e.Fits 0 := fun e fits => Nat.not_lt_zero _ fits.light
      have noQuery : ∀ query : Query, ¬ query.Fits 0 :=
        fun query fits => Nat.not_lt_zero _ fits.light
      exact {
        expr := fun e fits => (noExpr e fits).elim
        negation := fun e fits => (noExpr e fits).elim
        signed := fun e fits => (noExpr e fits).elim
        query := fun query fits => (noQuery query fits).elim
        noExpr := ⟨fun rest _ => ⟨_, rfl⟩⟩
        noQuery := fun tokens _ rank => ⟨fun rest _ => ⟨_, rfl⟩⟩ }
  | cons c clock ih =>
      exact {
        expr := fun e fits => Expression.reads_disjunction ih fits
        negation := fun e fits onLevel => Expression.reads_negation ih fits onLevel
        signed := fun e fits onLevel => Expression.reads_signed ih fits onLevel
        query := fun query fits => (Clause.reads_query ih fits).mapErrors
        noExpr := Expression.avoids_disjunction (Nested.within clock)
        noQuery := by
          intro tokens begins rank
          have noSelect := begins.avoids_keyword .select (by decide) (by decide) rank
          exact Clause.avoids_asPart (((Clause.avoids_opening noSelect).bind _).bind _) }

/-- Every regular query is read back from its text. -/
theorem parse_print {query : Query} (regular : query.Regular) :
    parse (print query) = .ok query := by
  have text : (print query).toList = write query.tokens := by simp [print]
  have fits : query.Fits ((write query.tokens).length + 1) :=
    ⟨regular, Nat.lt_succ_of_le (weight_le_length_write query.tokens)⟩
  have queryRead : readQuery (write query.tokens) = .ok query [] := by
    have read := (Clause.reads_query (Nested.faithful_within (write query.tokens)) fits).ok []
      (stops_nil 1)
    rwa [List.append_nil] at read
  have flush : Flush query.tokens := by
    obtain ⟨_, more, tokens, rfl⟩ := query.begins
    rw [tokens]
    exact flush_keyword .select more
  have blanks : Clause.opening spaces (write query.tokens) = .ok () (write query.tokens) := by
    rw [Clause.opening, mapErrors_of_ok]
    rw [spaces, flush]
  have read : readStatement (write query.tokens) = .ok query [] := by
    have noSemicolon : optional (Clause.opening (symbol ';')) [] = .ok none [] := rfl
    unfold readStatement
    rw [bind_of_ok blanks, bind_of_ok queryRead, bind_of_ok noSemicolon]
    rfl
  unfold parse
  rw [text, read]

theorem readStatement_yields : Yields readStatement Query.Regular := by
  apply Yields.andThen
  intro _
  apply Yields.bind readQuery_yields
  intro query regular
  apply Yields.andThen
  intro _
  apply Yields.andThen
  intro _
  exact .pure regular

theorem regular_of_parse {text : String} {query : Query} (read : parse text = .ok query) :
    query.Regular := by
  unfold parse at read
  split at read
  · rename_i found rest statementRead
    cases read
    exact readStatement_yields.of_ok statementRead
  all_goals contradiction

/-- What is read from a text is read again from what is printed of it. -/
theorem parse_print_of_parse {text : String} {query : Query} (read : parse text = .ok query) :
    parse (print query) = .ok query :=
  parse_print (regular_of_parse read)

/-- A query with a sign, brackets and a quote in a name. -/
def quotedQuery : Query where
  distinct := false
  items := [.expr (.binary .minus (.column ["a"]) (.nested (.literal (.integer (-1)))))
    (some "x\"y")]
  sources := []
  condition := none
  groupBy := []
  having := none
  orderBy := [⟨.column ["a"], true⟩]
  limit := none
  offset := none

theorem parse_print_of_parse_quotedQuery :
    parse "select a-(- 1)\"x\"\"y\"order by a;" = .ok quotedQuery ∧
      parse (print quotedQuery) = .ok quotedQuery := by
  have read : parse "select a-(- 1)\"x\"\"y\"order by a;" = .ok quotedQuery := by
    cbv
  exact ⟨read, parse_print_of_parse read⟩

end TripleTables.Sql
