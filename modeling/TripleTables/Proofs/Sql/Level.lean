import TripleTables.Proofs.Sql.Primary

/-!
# Reading expressions back

Every regular expression is read back at its level, if what follows is bound less
tightly than the operators of the level.  Operators of one level and predicates
are read in rounds: the first operand is read, and each round puts one more
operator around what has been read.  The rounds follow the left spine of the
tree.
-/

namespace TripleTables.Sql

open Reader Lexer

namespace Expression

variable {nested : Nested} {n : Nat}

/-! ## Rounds -/

/-- The expression is made from its left part by one round, which reads the
tokens after that part. -/
structure Grows (step : Expr → Lexer Expr) (n level : Nat) (left : Expr) (suffix : List Token)
    (e : Expr) : Prop where
  fits : left.Fits n
  onLevel : level ≤ left.level
  tokens : e.tokens = left.tokens ++ suffix
  begins : Begins (Token.Separates (16 + level)) suffix
  reads : Reads (step left) (16 + level) suffix e

section Spine

variable {operand : Lexer Expr} {step : Expr → Lexer Expr} {level : Nat}
variable (tight : ∀ e : Expr, e.Fits n → level < e.level → Reads operand (16 + level) e.tokens e)
variable (loose : ∀ e : Expr, e.Fits n → e.level = level →
  ∃ left suffix, Grows step n level left suffix e)

include tight loose

/-- The first operand is read, and then all rounds up to the whole expression. -/
theorem rounds_spine (bound : Nat) : ∀ e : Expr, e.tokens.length ≤ bound → e.Fits n →
    level ≤ e.level → ∀ rest, Stops (16 + level) rest →
      ∃ first middle, operand (write (e.tokens ++ rest)) = .ok first middle ∧
        Rounds step first middle e (write rest) := by
  induction bound with
  | zero =>
      intro e short fits
      obtain ⟨token, more, tokens, _⟩ := fits.regular.opens
      simp [tokens] at short
  | succ bound ih =>
      intro e short fits onLevel rest stops
      rcases Nat.lt_or_eq_of_le onLevel with tighter | same
      · exact ⟨e, write rest, (tight e fits tighter).ok rest stops, .none e _⟩
      · obtain ⟨left, suffix, grows⟩ := loose e fits same.symm
        have shorter : left.tokens.length ≤ bound := by
          obtain ⟨token, more, rfl, _⟩ := grows.begins
          rw [grows.tokens, List.length_append, List.length_cons] at short
          omega
        obtain ⟨first, middle, firstRead, rounds⟩ := ih left shorter grows.fits grows.onLevel
          (suffix ++ rest) (grows.begins.ends_of_separates.stops rest stops)
        have last : Rounds step left (write (suffix ++ rest)) e (write rest) :=
          .next (grows.reads.ok rest stops) (grows.begins.length_write_lt rest) (.none e _)
        rw [grows.tokens, List.append_assoc]
        exact ⟨first, middle, firstRead, rounds.trans last⟩

theorem reads_spine (stop : ∀ e, Avoids (step e) (15 + level) []) {e : Expr} (fits : e.Fits n)
    (onLevel : level ≤ e.level) :
    Reads (do let first ← operand; repeating step first) (15 + level) e.tokens e := by
  constructor
  intro rest stops
  obtain ⟨first, middle, firstRead, rounds⟩ := rounds_spine tight loose e.tokens.length e
    (Nat.le_refl _) fits onLevel rest (stops.mono (by omega))
  rw [bind_of_ok firstRead]
  exact repeating_of_rounds rounds ((stop e).misses rest stops)

end Spine

/-- Operators of one level are read back with their operands. -/
theorem reads_chain {operand : Lexer Expr} {level : Nat} (chained : level ∈ [0, 1, 4, 5, 6])
    (tight : ∀ e : Expr, e.Fits n → level < e.level → Reads operand (16 + level) e.tokens e)
    {e : Expr} (fits : e.Fits n) (onLevel : level ≤ e.level) :
    Reads (chain operand (operatorAt level)) (15 + level) e.tokens e := by
  have bounded : level ≤ 6 := by simp at chained; omega
  refine reads_spine tight ?_ (fun e => (avoids_operatorAt bounded).bind _) fits onLevel
  intro e fits same
  obtain ⟨op, left, right, rfl⟩ := Expr.eq_binary_of_level (same.symm ▸ chained)
  have sameLevel : op.level = level := same
  have grouped : op.level ≤ left.level ∧ op.level + 1 ≤ right.level := fits.regular.grouped
  have light := fits.light
  simp only [Expr.tokens, weight_append, weight_cons] at light
  have leftFits : left.Fits n :=
    ⟨fits.regular.child (by simp +contextual [Expr.parts]), by omega⟩
  have rightFits : right.Fits n :=
    ⟨fits.regular.child (by simp +contextual [Expr.parts]), by omega⟩
  have opRead := reads_operatorAt op
  have separates := op.separates
  rw [sameLevel] at grouped opRead separates
  refine ⟨left, op.token :: right.tokens, leftFits, grouped.1, rfl, ⟨_, _, rfl, separates⟩, ?_⟩
  exact .bind opRead ((tight right rightFits grouped.2).map (Expr.binary op left))
    (rightFits.regular.opens.ends_of_opens _)

section Levels

variable (faithful : nested.Faithful n)

include faithful

theorem reads_multiplicative {e : Expr} (fits : e.Fits (n + 1)) (onLevel : 6 ≤ e.level) :
    Reads (multiplicative nested) 21 e.tokens e :=
  reads_chain (by decide) (fun _ => reads_signed faithful) fits onLevel

theorem reads_additive {e : Expr} (fits : e.Fits (n + 1)) (onLevel : 5 ≤ e.level) :
    Reads (additive nested) 20 e.tokens e :=
  reads_chain (by decide) (fun _ => reads_multiplicative faithful) fits onLevel

theorem reads_bitwise {e : Expr} (fits : e.Fits (n + 1)) (onLevel : 4 ≤ e.level) :
    Reads (bitwise nested) 19 e.tokens e :=
  reads_chain (by decide) (fun _ => reads_additive faithful) fits onLevel

/-! ## Predicates -/

section Predicates

variable (left : Expr)

theorem reads_comparison {op : BinaryOp} (isComparison : op.level = 3) {right : Expr}
    (fits : right.Fits (n + 1)) (onLevel : 4 ≤ right.level) :
    Reads (predicateSuffix nested left) 19 (op.token :: right.tokens) (.binary op left right) := by
  have opRead := reads_operatorAt op
  rw [isComparison] at opRead
  have opens := fits.regular.opens
  have ends := opens.ends_of_opens 19
  have noWord :
      ∀ word ∈ [Keyword.all, .any, .some], Avoids (keyword word.text) 19 right.tokens := by
    intro word member
    have other : ∀ word ∈ [Keyword.all, .any, .some],
        word ∉ Keyword.opening ∧ word ∉ Keyword.callable := by
      decide
    exact opens.avoids_keyword word (other word member).1 (other word member).2 19
  have noQuantifier : Avoids (quantified nested left) 19 (op.token :: right.tokens) := by
    refine .after opRead (.bind (.firstOf ?_) _) ends
    simp only [List.mem_cons, List.not_mem_nil, or_false, forall_eq_or_imp, forall_eq]
    exact ⟨(noWord .all (by simp)).bind _, (noWord .any (by simp)).bind _,
      (noWord .some (by simp)).bind _⟩
  refine .orElse_right noQuantifier (.orElse_left ?_ _)
  exact .bind opRead ((reads_bitwise faithful fits onLevel).map (Expr.binary op left)) ends

theorem reads_compareAll {op : BinaryOp} (isComparison : op.level = 3) {query : Query}
    (fits : query.Fits n) :
    Reads (predicateSuffix nested left) 19 (op.token :: .keyword .all :: inBrackets query.tokens)
      (.compareAll op left query) := by
  have opRead := reads_operatorAt op
  rw [isComparison] at opRead
  have all : Reads (firstOf (do keyword "ALL"; return true)
      [do keyword "ANY"; return false, do keyword "SOME"; return false]) 25 [.keyword .all] true :=
    .orElse_left (.keyword .all (.pure true) (.nil (Nat.le_refl 25))) _
  have queryRead := (reads_bracketedQuery faithful fits).map (Expr.compareAll op left)
  exact .orElse_left (.bind opRead (.bind all (queryRead.mono (by decide)) (.mark (by decide) _))
    (.keyword (by decide) _)) _

theorem reads_compareAny {op : BinaryOp} (isComparison : op.level = 3) {query : Query}
    (fits : query.Fits n) :
    Reads (predicateSuffix nested left) 19 (op.token :: .keyword .any :: inBrackets query.tokens)
      (.compareAny op left query) := by
  have opRead := reads_operatorAt op
  rw [isComparison] at opRead
  have any : Reads (firstOf (do keyword "ALL"; return true)
      [do keyword "ANY"; return false, do keyword "SOME"; return false]) 25 [.keyword .any] false :=
    .orElse_right ((Avoids.keyword_of_ne .all (by decide) []).bind _)
      (.orElse_left (.keyword .any (.pure false) (.nil (Nat.le_refl 25))) _)
  have queryRead := (reads_bracketedQuery faithful fits).map (Expr.compareAny op left)
  exact .orElse_left (.bind opRead (.bind any (queryRead.mono (by decide)) (.mark (by decide) _))
    (.keyword (by decide) _)) _

omit faithful in
/-- What starts with a keyword is no comparison. -/
theorem reads_predicateSuffix_of_keyword {word : Keyword} {tokens : List Token} {e : Expr}
    (reads : Reads (firstOf (nullTest left) [negatable nested left]) 19
      (.keyword word :: tokens) e) :
    Reads (predicateSuffix nested left) 19 (.keyword word :: tokens) e := by
  have noOperator : Avoids (operatorAt 3) 19 (.keyword word :: tokens) :=
    ⟨fun rest _ => operatorAt_misses_word (Nat.le_refl 3) word _⟩
  exact .orElse_right (noOperator.bind _) (.orElse_right (noOperator.bind _) reads)

omit faithful in
theorem reads_isNull (isNegated : Bool) :
    Reads (predicateSuffix nested left) 19
      (.keyword .is :: (flagged isNegated .not ++ [.keyword .null])) (.isNull isNegated left) := by
  have null : ∀ found : Bool, Reads (do keyword "NULL"; return .isNull found left : Lexer Expr) 19
      [.keyword .null] (.isNull found left) :=
    fun found => .keyword .null (.pure _) (.nil (by decide))
  apply reads_predicateSuffix_of_keyword
  apply Reads.orElse_left
  cases isNegated with
  | true =>
      exact .keyword .is (.bind (reads_keyword .not).optional (null true) (.keyword (by decide) []))
        (.keyword (by decide) _)
  | false =>
      exact .keyword .is (.skip (.keyword_of_ne .not (by decide) []) (null false))
        (.keyword (by decide) _)

omit faithful in
/-- A predicate that may be negated is read from its own keyword on. -/
theorem reads_negatable {isNegated : Bool} {word : Keyword} {tokens : List Token} {e : Expr}
    (isNot : word ≠ .not) (isIs : word ≠ .is)
    (reads : Reads (afterNot nested left isNegated) 19 (.keyword word :: tokens) e) :
    Reads (predicateSuffix nested left) 19
      (flagged isNegated .not ++ .keyword word :: tokens) e := by
  cases isNegated with
  | true =>
      apply reads_predicateSuffix_of_keyword
      exact .orElse_right ((Avoids.keyword_of_ne .is (by decide) _).bind _)
        (.bind (reads_keyword .not).optional reads (.keyword (Token.keyword word).rank_lt _))
  | false =>
      apply reads_predicateSuffix_of_keyword
      exact .orElse_right ((Avoids.keyword_of_ne .is isIs _).bind _)
        (.skip (.keyword_of_ne .not isNot _) reads)

theorem reads_like (isNegated : Bool) {pattern : Expr} (fits : pattern.Fits (n + 1))
    (onLevel : 4 ≤ pattern.level) :
    Reads (predicateSuffix nested left) 19
      (flagged isNegated .not ++ .keyword .like :: pattern.tokens)
      (.like isNegated left pattern) := by
  apply reads_negatable left (by decide) (by decide)
  exact .bind (reads_keyword .like).optional
    ((reads_bitwise faithful fits onLevel).map (Expr.like isNegated left))
    (fits.regular.opens.ends_of_opens 19)

theorem reads_between (isNegated : Bool) {low high : Expr} (lowFits : low.Fits (n + 1))
    (lowLevel : 4 ≤ low.level) (highFits : high.Fits (n + 1)) (highLevel : 4 ≤ high.level) :
    Reads (predicateSuffix nested left) 19
      (flagged isNegated .not ++ .keyword .between :: (low.tokens ++ .keyword .and :: high.tokens))
      (.between isNegated left low high) := by
  apply reads_negatable left (by decide) (by decide)
  apply Reads.skip (.keyword_of_ne .like (by decide) _)
  have highRead := (reads_bitwise faithful highFits highLevel).map (Expr.between isNegated left low)
  have afterLow : Reads (do
        keyword "AND"
        let high ← bitwise nested
        return .between isNegated left low high : Lexer Expr) 19
      (.keyword .and :: high.tokens) (.between isNegated left low high) :=
    .keyword .and highRead (highFits.regular.opens.ends_of_opens 19)
  exact .bind (reads_keyword .between).optional
    (.bind (reads_bitwise faithful lowFits lowLevel) afterLow (.keyword (by decide) _))
    ((lowFits.regular.opens.append _).ends_of_opens 19)

omit faithful in
theorem reads_membership (isNegated : Bool) {inside : List Token} {e : Expr}
    (reads : Reads (orAfterFailure
      (do return .inQuery isNegated left (← bracketedQuery nested))
      (do return .inList isNegated left (← bracketedList nested))) 25 (inBrackets inside) e) :
    Reads (predicateSuffix nested left) 19
      (flagged isNegated .not ++ .keyword .in :: inBrackets inside) e := by
  apply reads_negatable left (by decide) (by decide)
  apply Reads.skip (.keyword_of_ne .like (by decide) _)
  apply Reads.skip (.keyword_of_ne .between (by decide) _)
  exact .keyword .in (reads.mono (by decide)) (.mark (by decide) _)

theorem reads_inQuery (isNegated : Bool) {query : Query} (fits : query.Fits n) :
    Reads (predicateSuffix nested left) 19
      (flagged isNegated .not ++ .keyword .in :: inBrackets query.tokens)
      (.inQuery isNegated left query) :=
  reads_membership left isNegated
    (.orAfterFailure_left
      ((reads_bracketedQuery faithful fits).map (Expr.inQuery isNegated left)) _)

theorem reads_inList (isNegated : Bool) {items : List Expr} (some : items ≠ [])
    (fits : ∀ e ∈ items, e.Fits n) :
    Reads (predicateSuffix nested left) 19
      (flagged isNegated .not ++
        .keyword .in :: inBrackets (listed (.mark .comma) (items.map Expr.tokens)))
      (.inList isNegated left items) :=
  reads_membership left isNegated
    (.orAfterFailure_right
      ((avoids_bracketedQuery faithful (begins_listed some fits) 25).bind _)
      ((reads_bracketedList faithful some fits).map (Expr.inList isNegated left)))

end Predicates

/-- A predicate is made from its subject by one round. -/
theorem grows_predicate {e : Expr} (fits : e.Fits (n + 1)) (same : e.level = 3) :
    ∃ left suffix, Grows (predicateSuffix nested) (n + 1) 3 left suffix e := by
  have light := fits.light
  have regular := fits.regular
  have childFits : ∀ child : Expr, (∀ part ∈ child.parts, part ∈ e.parts) →
      weight child.tokens ≤ weight e.tokens → child.Fits (n + 1) :=
    fun child inside lighter => ⟨regular.child inside, by omega⟩
  cases e with
  | binary op left right =>
      have isComparison : op.level = 3 := same
      have grouped : op.level ≤ left.level ∧ op.level + 1 ≤ right.level := regular.grouped
      have separates := op.separates
      rw [isComparison] at grouped separates
      have leftFits := childFits left (by simp +contextual [Expr.parts]) (by simp [Expr.tokens])
      have rightFits := childFits right (by simp +contextual [Expr.parts])
        (by simp [Expr.tokens]; omega)
      exact ⟨left, _, leftFits, grouped.1, rfl, ⟨_, _, rfl, separates⟩,
        reads_comparison faithful left isComparison rightFits grouped.2⟩
  | like isNegated subject pattern =>
      have grouped : 3 ≤ subject.level ∧ 4 ≤ pattern.level := regular.grouped
      have subjectFits :=
        childFits subject (by simp +contextual [Expr.parts]) (by simp [Expr.tokens])
      have patternFits := childFits pattern (by simp +contextual [Expr.parts])
        (by simp [Expr.tokens]; omega)
      exact ⟨subject, _, subjectFits, grouped.1, rfl, begins_flagged (by decide) (by decide) _,
        reads_like faithful subject isNegated patternFits grouped.2⟩
  | between isNegated subject low high =>
      have grouped : 3 ≤ subject.level ∧ 4 ≤ low.level ∧ 4 ≤ high.level := regular.grouped
      have subjectFits :=
        childFits subject (by simp +contextual [Expr.parts]) (by simp [Expr.tokens])
      have lowFits :=
        childFits low (by simp +contextual [Expr.parts]) (by simp [Expr.tokens]; omega)
      have highFits :=
        childFits high (by simp +contextual [Expr.parts]) (by simp [Expr.tokens]; omega)
      exact ⟨subject, _, subjectFits, grouped.1, rfl, begins_flagged (by decide) (by decide) _,
        reads_between faithful subject isNegated lowFits grouped.2.1 highFits grouped.2.2⟩
  | inQuery isNegated subject query =>
      have grouped : 3 ≤ subject.level := regular.grouped
      have subjectFits :=
        childFits subject (by simp +contextual [Expr.parts]) (by simp [Expr.tokens])
      have queryFits : query.Fits n := fits.query (by simp +contextual [Expr.parts])
        (by simp [Expr.tokens, weight_inBrackets]; omega)
      exact ⟨subject, _, subjectFits, grouped, rfl, begins_flagged (by decide) (by decide) _,
        reads_inQuery faithful subject isNegated queryFits⟩
  | inList isNegated subject items =>
      have grouped : 3 ≤ subject.level := regular.grouped
      have some : items ≠ [] := regular.spelled
      have subjectFits :=
        childFits subject (by simp +contextual [Expr.parts]) (by simp [Expr.tokens])
      have itemsRegular := (Part.every_append.mp (Part.every_cons.mp regular).2).2
      rw [Expr.listParts_eq, Part.every_flatMap] at itemsRegular
      have itemsFit : ∀ e ∈ items, e.Fits n := by
        intro e member
        have listed := weight_le_listed (.mark .comma) Expr.tokens member
        simp only [Expr.tokens, Expr.listTokens_eq, weight_append, weight_cons,
          weight_inBrackets] at light
        exact ⟨itemsRegular e member, by omega⟩
      refine ⟨subject, _, subjectFits, grouped, ?_, begins_flagged (by decide) (by decide) _,
        reads_inList faithful subject isNegated some itemsFit⟩
      rw [Expr.tokens, Expr.listTokens_eq]
  | isNull isNegated subject =>
      have grouped : 3 ≤ subject.level := regular.grouped
      have subjectFits :=
        childFits subject (by simp +contextual [Expr.parts]) (by simp [Expr.tokens])
      exact ⟨subject, _, subjectFits, grouped, rfl,
        ⟨_, _, rfl, Token.separates_keyword (by decide)⟩, reads_isNull subject isNegated⟩
  | compareAny op left query =>
      have isComparison : op.level = 3 := regular.spelled
      have grouped : 3 ≤ left.level := regular.grouped
      have separates := op.separates
      rw [isComparison] at separates
      have leftFits := childFits left (by simp +contextual [Expr.parts]) (by simp [Expr.tokens])
      have queryFits : query.Fits n := fits.query (by simp +contextual [Expr.parts])
        (by simp [Expr.tokens, weight_inBrackets]; omega)
      exact ⟨left, _, leftFits, grouped, rfl, ⟨_, _, rfl, separates⟩,
        reads_compareAny faithful left isComparison queryFits⟩
  | compareAll op left query =>
      have isComparison : op.level = 3 := regular.spelled
      have grouped : 3 ≤ left.level := regular.grouped
      have separates := op.separates
      rw [isComparison] at separates
      have leftFits := childFits left (by simp +contextual [Expr.parts]) (by simp [Expr.tokens])
      have queryFits : query.Fits n := fits.query (by simp +contextual [Expr.parts])
        (by simp [Expr.tokens, weight_inBrackets]; omega)
      exact ⟨left, _, leftFits, grouped, rfl, ⟨_, _, rfl, separates⟩,
        reads_compareAll faithful left isComparison queryFits⟩
  | unary op operand => cases op <;> exact absurd same (by simp [Expr.level, UnaryOp.level])
  | column _ | literal _ | parameter | nested _ | subquery _ | existsIn _ | case _ _ _
  | call _ _ _ _ =>
      simp only [Expr.level] at same
      contradiction

omit faithful in
theorem avoids_predicateSuffix (left : Expr) : Avoids (predicateSuffix nested left) 18 [] := by
  have noKeyword : ∀ word : Keyword, word.rank = 18 → Avoids (keyword word.text) 18 [] := by
    intro word rank
    rw [← rank]
    exact .keyword word
  have noOperator : Avoids comparisonOperator 18 [] := @avoids_operatorAt 3 (by decide)
  apply Avoids.firstOf
  simp only [List.mem_cons, List.not_mem_nil, or_false, forall_eq_or_imp, forall_eq]
  refine ⟨noOperator.bind _, noOperator.bind _, (noKeyword .is rfl).bind _, ?_⟩
  exact .skip (noKeyword .not rfl) (.skip (noKeyword .like rfl)
    (.skip (noKeyword .between rfl) ((noKeyword .in rfl).bind _)))

theorem reads_predicate {e : Expr} (fits : e.Fits (n + 1)) (onLevel : 3 ≤ e.level) :
    Reads (predicate nested) 18 e.tokens e :=
  reads_spine (fun _ => reads_bitwise faithful) (fun _ => grows_predicate faithful)
    avoids_predicateSuffix fits onLevel

/-! ## Conditions -/

theorem reads_negation {e : Expr} (fits : e.Fits (n + 1)) (onLevel : 2 ≤ e.level) :
    Reads (negation nested) 17 e.tokens e := by
  rcases Nat.lt_or_eq_of_le onLevel with tighter | same
  · have noNot : Avoids (keyword "NOT") 17 e.tokens := by
      apply (e.begins fits.regular).avoids
      rintro token ⟨opens, ifNot⟩ rest
      refine opens.keyword_misses rest .not (fun isNot => ?_) (by decide)
      have := ifNot isNot
      omega
    exact .orElse_right (noNot.bind _) ((reads_predicate faithful fits tighter).mono (by decide))
  · obtain ⟨operand, rfl⟩ := Expr.eq_not_of_level same.symm
    have grouped : 2 ≤ operand.level := fits.regular.grouped
    have operandFits : operand.Fits n := by
      refine fits.child (by simp +contextual [Expr.parts]) ?_
      have some := UnaryOp.not.one_le_length
      rw [Expr.tokens, weight_cons]
      omega
    exact .orElse_left (.keyword .not
      ((faithful.negation operand operandFits grouped).map (Expr.unary .not))
      (operandFits.regular.opens.ends_of_opens 17)) _

theorem reads_conjunction {e : Expr} (fits : e.Fits (n + 1)) (onLevel : 1 ≤ e.level) :
    Reads (conjunction nested) 16 e.tokens e :=
  reads_chain (by decide) (fun _ => reads_negation faithful) fits onLevel

theorem reads_disjunction {e : Expr} (fits : e.Fits (n + 1)) :
    Reads (disjunction nested) 15 e.tokens e :=
  reads_chain (by decide) (fun _ => reads_conjunction faithful) fits (Nat.zero_le _)

end Levels

end Expression

end TripleTables.Sql
