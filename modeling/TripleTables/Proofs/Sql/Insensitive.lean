import TripleTables.Proofs.Sql.Spelling
import TripleTables.Sql.Statement

/-!
# Statements in another style

The grammar is followed from the lexemes up: every reader agrees with itself on
texts that differ in style only, provided the readers for nested parts do on
shorter texts.  The clocks close the recursion, and the statements of two such
texts are the same once their names are lowered.
-/

namespace TripleTables.Sql

open Reader Lexer

/-- The readers for nested parts agree on texts that are shorter than `n` and
`m`. -/
structure Nested.Agrees (n m : Nat) (first second : Nested) : Prop where
  expr : Agree n m 1 (Expr.rewritten lowering) first.expr second.expr
  negation : Agree n m 1 (Expr.rewritten lowering) first.negation second.negation
  signed : Agree n m 1 (Expr.rewritten lowering) first.signed second.signed
  query : Agree n m 1 (Query.rewritten lowering) first.query second.query

namespace Expression

variable {n m : Nat}

/-! ## Operators -/

theorem operator_agree {first : String × BinaryOp} {rest : List (String × BinaryOp)}
    (marks : (first :: rest).all (fun entry => isMarks entry.1) = true) :
    Agree n m 1 id (operator first rest) (operator first rest) := by
  have one : ∀ entry ∈ first :: rest, Agree n m 1 id
      (do Lexer.text entry.1; return entry.2) (do Lexer.text entry.1; return entry.2) := by
    intro entry member
    exact (text_agree (List.all_eq_true.mp marks entry member)).bind fun _ _ _ => .pure rfl
  apply token_agree
  apply (one first (by simp)).firstOf
  rw [List.forall₂_map_left_iff, List.forall₂_map_right_iff, List.forall₂_same]
  exact fun entry member => one entry (by simp [member])

theorem comparisonOperator_agree : Agree n m 1 id comparisonOperator comparisonOperator :=
  operator_agree (by decide)

theorem additiveOperator_agree : Agree n m 1 id additiveOperator additiveOperator :=
  operator_agree (by decide)

theorem multiplicativeOperator_agree :
    Agree n m 1 id multiplicativeOperator multiplicativeOperator :=
  operator_agree (by decide)

theorem singleBar_agree : Agree n m 1 id singleBar singleBar := by
  have notDoubled : Agree n m 0 id
      (fun s => if s.head? = some '|' then .miss s else .ok () s : Lexer Unit)
      (fun s => if s.head? = some '|' then .miss s else .ok () s : Lexer Unit) := by
    constructor
    intro s t _ _ restyled
    have heads := restyled.head?_any (caseBlind_of_isMark (by decide : isMark '|' = true))
    have bar : ∀ text : List Char, text.head? = some '|' ↔ text.head?.any (· == '|') = true := by
      intro text
      cases text <;> simp
    simp only [bar, heads]
    split
    · exact .here
    · exact .ok rfl restyled (.refl s) (.refl t)
  exact (char_agree (by decide)).bind fun _ _ _ => notDoubled.bind fun _ _ _ => .pure rfl

theorem bitwiseOperator_agree : Agree n m 1 id bitwiseOperator bitwiseOperator := by
  have one : ∀ {mark : Char} (op : BinaryOp), isMark mark = true →
      Agree n m 1 id (do let _ ← char mark; return op) (do let _ ← char mark; return op) :=
    fun op isMark => (char_agree isMark).bind fun _ _ _ => .pure rfl
  exact token_agree ((one .bitAnd (by decide)).firstOf
    (.cons singleBar_agree (.cons (one .bitXor (by decide)) .nil)))

theorem chain_agree {operand other : Lexer Expr} {op otherOp : Lexer BinaryOp}
    (operands : Agree n m 1 (Expr.rewritten lowering) operand other)
    (ops : Agree n m 1 id op otherOp) (stops : Misses op []) :
    Agree n m 1 (Expr.rewritten lowering) (chain operand op) (chain other otherOp) := by
  apply operands.bind
  intro first otherFirst same
  apply Agree.repeating same
  · intro left otherLeft sameLeft
    apply ops.bind
    rintro op _ ⟨⟩
    exact operands.map fun right otherRight sameRight => by
      simp only [Expr.rewritten, sameLeft, sameRight]
  · exact fun left => stops.bind _

/-! ## What stands for itself -/

section Primary

variable {first second : Nested} (nested : Nested.Agrees n m first second)

include nested

theorem bracketedQuery_agree :
    Agree (n + 1) (m + 1) 1 (Query.rewritten lowering) (bracketedQuery first)
      (bracketedQuery second) :=
  (symbol_agree (by decide)).behind fun _ _ _ => nested.query.bind fun _ _ same =>
    (symbol_agree (by decide)).bind fun _ _ _ => .pure same

theorem bracketedList_agree :
    Agree (n + 1) (m + 1) 1 (List.map (Expr.rewritten lowering)) (bracketedList first)
      (bracketedList second) :=
  (symbol_agree (by decide)).behind fun _ _ _ =>
    (nested.expr.separatedList1 (symbol_agree (by decide)) ⟨_, rfl⟩).bind fun _ _ same =>
      (symbol_agree (by decide)).bind fun _ _ _ => .pure same

theorem bracketed_agree :
    Agree (n + 1) (m + 1) 1 (Expr.rewritten lowering) (bracketed first) (bracketed second) := by
  apply Agree.orAfterFailure
  · exact (bracketedQuery_agree nested).map fun query other same => by
      simp only [Expr.rewritten, same]
  · exact (symbol_agree (by decide)).behind fun _ _ _ => nested.expr.bind fun inner other same =>
      (symbol_agree (by decide)).bind fun _ _ _ => .pure (by simp only [Expr.rewritten, same])

omit nested in
theorem parameter_agree : Agree n m 1 (Expr.rewritten lowering) parameter parameter :=
  (symbol_agree (by decide)).bind fun _ _ _ => .pure rfl

omit nested in
theorem typedString_agree {word : String} (literal : String → Literal)
    (isKeyword : isKeyword word = true) :
    Agree n m 1 id (typedString word literal) (typedString word literal) :=
  (keyword_agree isKeyword).bind fun _ _ _ =>
    string_agree.map fun _ _ same => congrArg literal same

omit nested in
theorem bracedLiteral_agree :
    Agree n m 1 (Expr.rewritten lowering) bracedLiteral bracedLiteral := by
  have value : Agree n m 1 id
      (firstOf (typedString "TS" .timestamp) [typedString "D" .date, typedString "T" .time])
      (firstOf (typedString "TS" .timestamp) [typedString "D" .date, typedString "T" .time]) :=
    (typedString_agree _ (by decide)).firstOf
      (.cons (typedString_agree _ (by decide))
        (.cons (typedString_agree _ (by decide)) .nil))
  exact (symbol_agree (by decide)).bind fun _ _ _ => value.bind fun literal other same =>
    (symbol_agree (by decide)).bind fun _ _ _ =>
      .pure (congrArg (fun value => (Expr.literal value).rewritten lowering) same)

omit nested in
theorem typedLiteral_agree : Agree n m 1 (Expr.rewritten lowering) typedLiteral typedLiteral := by
  have value : Agree n m 1 id
      (firstOf (typedString "DATE" .date)
        [typedString "TIMESTAMP" .timestamp, typedString "TIME" .time])
      (firstOf (typedString "DATE" .date)
        [typedString "TIMESTAMP" .timestamp, typedString "TIME" .time]) :=
    (typedString_agree _ (by decide)).firstOf
      (.cons (typedString_agree _ (by decide))
        (.cons (typedString_agree _ (by decide)) .nil))
  exact value.map fun literal other same =>
    congrArg (fun value => (Expr.literal value).rewritten lowering) same

omit nested in
theorem wordLiteral_agree {word : String} (literal : Literal)
    (isKeyword : isKeyword word = true) :
    Agree n m 1 (Expr.rewritten lowering) (wordLiteral word literal) (wordLiteral word literal) :=
  (keyword_agree isKeyword).bind fun _ _ _ => .pure rfl

theorem branch_agree : Agree n m 1 (Branch.rewritten lowering) (branch first) (branch second) :=
  (keyword_agree (by decide)).bind fun _ _ _ =>
    nested.expr.bind fun condition other sameCondition =>
      (keyword_agree (by decide)).bind fun _ _ _ =>
        nested.expr.map fun result other sameResult => by
          simp only [Branch.rewritten, sameCondition, sameResult]

theorem caseOperand_agree :
    Agree n m 0 (Option.map (Expr.rewritten lowering)) (caseOperand first)
      (caseOperand second) := by
  have operand : Agree n m 1 (Option.map (Expr.rewritten lowering)) (do return some (← first.expr))
      (do return some (← second.expr)) :=
    nested.expr.map fun operand other same => congrArg some same
  apply (keyword_agree (by decide)).succeeds.bind
  rintro (_ | _) _ ⟨⟩
  · simp only [Bool.false_eq_true, if_false]
    exact operand.mono (Nat.zero_le 1)
  · simp only [if_true]
    exact .pure rfl

theorem caseExpression_agree :
    Agree (n + 1) (m + 1) 1 (Expr.rewritten lowering) (caseExpression first)
      (caseExpression second) := by
  apply (keyword_agree (by decide)).behind
  intro _ _ _
  apply (caseOperand_agree nested).bind
  intro operand otherOperand sameOperand
  apply ((branch_agree nested).many1 ⟨_, rfl⟩).bind
  intro branches otherBranches sameBranches
  have elsePart : Agree n m 1 (Expr.rewritten lowering) (do keyword "ELSE"; first.expr)
      (do keyword "ELSE"; second.expr) :=
    (keyword_agree (by decide)).bind fun _ _ _ => nested.expr
  apply elsePart.optional.bind
  intro otherwise otherOtherwise sameOtherwise
  apply (keyword_agree (by decide)).bind
  intro _ _ _
  exact .pure (by simp only [Expr.rewritten, Expr.optionRewritten_eq_map,
    Branch.listRewritten_eq_map, sameOperand, sameBranches, sameOtherwise])

theorem existsCondition_agree :
    Agree (n + 1) (m + 1) 1 (Expr.rewritten lowering) (existsCondition first)
      (existsCondition second) :=
  (keyword_agree (by decide)).bind fun _ _ _ =>
    (bracketedQuery_agree nested).map fun query other same => by simp only [Expr.rewritten, same]

theorem call_agree :
    Agree (n + 1) (m + 1) 1 (Expr.rewritten lowering) (call first) (call second) := by
  apply (token_agree (word_agree isFunctionName_of_sameLetters)).behind
  intro name otherName sameName
  apply (symbol_agree (by decide)).bind
  intro _ _ _
  apply (symbol_agree (by decide)).ifPresent
  · intro _ _ _
    exact (symbol_agree (by decide)).bind fun _ _ _ =>
      .pure (by simp only [Expr.rewritten, lowering_function, sameName])
  · apply (keyword_agree (by decide)).optional.bind
    intro distinct otherDistinct sameDistinct
    apply (nested.expr.separatedList (symbol_agree (by decide)) ⟨_, rfl⟩).bind
    intro args otherArgs sameArgs
    apply (symbol_agree (by decide)).bind
    intro _ _ _
    rw [Option.map_id, id, id] at sameDistinct
    exact .pure (by
      simp only [Expr.rewritten, Expr.listRewritten_eq_map, lowering_function, sameName, sameArgs,
        sameDistinct])
  · exact Nat.zero_le 1

theorem primary_agree :
    Agree (n + 1) (m + 1) 1 (Expr.rewritten lowering) (primary first) (primary second) := by
  apply (bracketed_agree nested).firstOf
  refine .cons parameter_agree (.cons bracedLiteral_agree (.cons typedLiteral_agree
    (.cons ?string (.cons ?number (.cons (wordLiteral_agree _ (by decide))
    (.cons (wordLiteral_agree _ (by decide))
    (.cons (wordLiteral_agree _ (by decide)) (.cons (caseExpression_agree nested)
    (.cons (existsCondition_agree nested) (.cons (call_agree nested)
    (.cons ?column .nil)))))))))))
  case string => exact string_agree.map fun value other same => by rw [id, id] at same; rw [same]
  case number =>
    exact number_agree.map fun text other same => by
      simp only [Expr.rewritten, lowering_literal, lowered_numberLiteral same]
  case column =>
    exact objectName_agree.map fun name other same => by
      simp only [Expr.rewritten, lowering_name, same]

end Primary

/-! ## Levels -/

section Levels

variable {first second : Nested} (nested : Nested.Agrees n m first second)

include nested

theorem signed_agree :
    Agree (n + 1) (m + 1) 1 (Expr.rewritten lowering) (signed first) (signed second) := by
  apply (symbol_agree (by decide)).ifPresentWithin (Nat.le_refl _) (Nat.le_refl _)
  · intro _ _ _
    exact nested.signed.map fun operand other same => by
      rw [Expr.rewritten_negated, same, Expr.rewritten_negated]
  · apply (symbol_agree (by decide)).ifPresentWithin (Nat.le_refl _) (Nat.le_refl _)
    · intro _ _ _
      exact nested.signed.map fun operand other same => by simp only [Expr.rewritten, same]
    · exact primary_agree nested
    · exact Nat.le_refl 1
  · exact Nat.le_refl 1

theorem multiplicative_agree :
    Agree (n + 1) (m + 1) 1 (Expr.rewritten lowering) (multiplicative first)
      (multiplicative second) :=
  chain_agree (signed_agree nested) multiplicativeOperator_agree ⟨_, rfl⟩

theorem additive_agree :
    Agree (n + 1) (m + 1) 1 (Expr.rewritten lowering) (additive first) (additive second) :=
  chain_agree (multiplicative_agree nested) additiveOperator_agree ⟨_, rfl⟩

theorem bitwise_agree :
    Agree (n + 1) (m + 1) 1 (Expr.rewritten lowering) (bitwise first) (bitwise second) :=
  chain_agree (additive_agree nested) bitwiseOperator_agree ⟨_, rfl⟩

theorem quantified_agree {left otherLeft : Expr}
    (sameLeft : left.rewritten lowering = otherLeft.rewritten lowering) :
    Agree (n + 1) (m + 1) 1 (Expr.rewritten lowering) (quantified first left)
      (quantified second otherLeft) := by
  apply comparisonOperator_agree.bind
  rintro op _ ⟨⟩
  apply Agree.bind ((keywordFor_agree true (by decide)).firstOf
    (.cons (keywordFor_agree false (by decide)) (.cons (keywordFor_agree false (by decide)) .nil)))
  rintro all _ ⟨⟩
  exact (bracketedQuery_agree nested).map fun query other same => by
    cases all <;> simp [Expr.rewritten, sameLeft, same]

theorem comparison_agree {left otherLeft : Expr}
    (sameLeft : left.rewritten lowering = otherLeft.rewritten lowering) :
    Agree (n + 1) (m + 1) 1 (Expr.rewritten lowering) (comparison first left)
      (comparison second otherLeft) := by
  apply comparisonOperator_agree.bind
  rintro op _ ⟨⟩
  exact (bitwise_agree nested).map fun right other same => by
    simp only [Expr.rewritten, sameLeft, same]

omit nested in
theorem nullTest_agree {left otherLeft : Expr}
    (sameLeft : left.rewritten lowering = otherLeft.rewritten lowering) :
    Agree n m 1 (Expr.rewritten lowering) (nullTest left) (nullTest otherLeft) := by
  apply (keyword_agree (by decide)).bind
  intro _ _ _
  apply (keyword_agree (by decide)).optional.bind
  intro negated otherNegated same
  rw [Option.map_id, id, id] at same
  subst same
  exact (keyword_agree (by decide)).bind fun _ _ _ =>
    .pure (by simp only [Expr.rewritten, sameLeft])

theorem membership_agree (negated : Bool) {left otherLeft : Expr}
    (sameLeft : left.rewritten lowering = otherLeft.rewritten lowering) :
    Agree (n + 1) (m + 1) 1 (Expr.rewritten lowering) (membership first negated left)
      (membership second negated otherLeft) := by
  apply (keyword_agree (by decide)).bind
  intro _ _ _
  apply Agree.orAfterFailure
  · exact (bracketedQuery_agree nested).map fun query other same => by
      simp only [Expr.rewritten, sameLeft, same]
  · exact (bracketedList_agree nested).map fun items other same => by
      simp only [Expr.rewritten, Expr.listRewritten_eq_map, sameLeft, same]

theorem afterNot_agree (negated : Bool) {left otherLeft : Expr}
    (sameLeft : left.rewritten lowering = otherLeft.rewritten lowering) :
    Agree (n + 1) (m + 1) 1 (Expr.rewritten lowering) (afterNot first left negated)
      (afterNot second otherLeft negated) := by
  apply (keyword_agree (by decide)).ifPresent
  · intro _ _ _
    exact (bitwise_agree nested).map fun pattern other same => by
      simp only [Expr.rewritten, lowering_keeps, Bool.false_eq_true, if_false, sameLeft, same]
  · apply (keyword_agree (by decide)).ifPresent
    · intro _ _ _
      apply (bitwise_agree nested).bind
      intro low otherLow sameLow
      apply (keyword_agree (by decide)).bind
      intro _ _ _
      exact (bitwise_agree nested).map fun high otherHigh sameHigh => by
        simp only [Expr.rewritten, sameLeft, sameLow, sameHigh]
    · exact membership_agree nested negated sameLeft
    · exact Nat.le_refl 1
  · exact Nat.le_refl 1

theorem negatable_agree {left otherLeft : Expr}
    (sameLeft : left.rewritten lowering = otherLeft.rewritten lowering) :
    Agree (n + 1) (m + 1) 1 (Expr.rewritten lowering) (negatable first left)
      (negatable second otherLeft) := by
  apply (keyword_agree (by decide)).optional.andThen
  intro negated otherNegated same
  rw [Option.map_id, id, id] at same
  subst same
  exact afterNot_agree nested negated.isSome sameLeft

theorem predicateSuffix_agree {left otherLeft : Expr}
    (sameLeft : left.rewritten lowering = otherLeft.rewritten lowering) :
    Agree (n + 1) (m + 1) 1 (Expr.rewritten lowering) (predicateSuffix first left)
      (predicateSuffix second otherLeft) :=
  (quantified_agree nested sameLeft).firstOf (.cons (comparison_agree nested sameLeft)
    (.cons (nullTest_agree sameLeft) (.cons (negatable_agree nested sameLeft) .nil)))

theorem predicate_agree :
    Agree (n + 1) (m + 1) 1 (Expr.rewritten lowering) (predicate first) (predicate second) := by
  apply (bitwise_agree nested).bind
  intro left otherLeft same
  exact .repeating same (fun _ _ alike => predicateSuffix_agree nested alike) fun _ => ⟨_, rfl⟩

theorem negation_agree :
    Agree (n + 1) (m + 1) 1 (Expr.rewritten lowering) (negation first) (negation second) := by
  apply Agree.orElse _ (predicate_agree nested)
  apply (keyword_agree (by decide)).behind
  intro _ _ _
  exact nested.negation.map fun operand other same => by simp only [Expr.rewritten, same]

theorem conjunction_agree :
    Agree (n + 1) (m + 1) 1 (Expr.rewritten lowering) (conjunction first) (conjunction second) :=
  chain_agree (negation_agree nested) (keywordFor_agree BinaryOp.and (by decide)) ⟨_, rfl⟩

theorem disjunction_agree :
    Agree (n + 1) (m + 1) 1 (Expr.rewritten lowering) (disjunction first) (disjunction second) :=
  chain_agree (conjunction_agree nested) (keywordFor_agree BinaryOp.or (by decide)) ⟨_, rfl⟩

end Levels

end Expression

namespace Clause

variable {α γ : Type} {n m least : Nat} {view : α → γ} {p q : Lexer α}

/-! ## Clauses -/

theorem opening_agree (agree : Agree n m least view p q) :
    Agree n m least view (opening p) (opening q) :=
  agree.mapErrors (fun first second => .miss (within_single first _) (within_single second _))
    fun first second => .halt (within_single first _) (within_single second _)

theorem committed_agree (context : Context) (agree : Agree n m least view p q) :
    Agree n m least view (committed context p) (committed context q) :=
  agree.mapErrors (fun first second => .halt (within_single first _) (within_single second _))
    fun first second => .halt (within_single first _) (within_single second _)

theorem clause_agree (context : Context) {keywords : Lexer Unit}
    (opens : Agree n m 1 id keywords keywords) (agree : Agree n m least view p q) :
    Agree n m 1 view (clause context keywords p) (clause context keywords q) :=
  (opening_agree opens).bind fun _ _ _ => committed_agree context agree

theorem asPart_agree {p q : ClauseReader α} (agree : Agree n m least view p q) :
    Agree n m least view (asPart p) (asPart q) :=
  agree.mapErrors (fun first second => .miss (within_place first) (within_place second))
    fun first second => .halt (within_place first) (within_place second)

section Parts

variable {first second : Nested} (nested : Nested.Agrees n m first second)

include nested

theorem selectItem_agree :
    Agree (n + 1) (m + 1) 1 (SelectItem.rewritten lowering) (selectItem first)
      (selectItem second) := by
  apply Agree.firstOf
  · exact (symbol_agree (by decide)).bind fun _ _ _ => .pure rfl
  refine .cons ?qualified (.cons ?expr .nil)
  case qualified =>
    exact objectName_agree.bind fun name other same =>
      (symbol_agree (by decide)).bind fun _ _ _ => (symbol_agree (by decide)).bind fun _ _ _ =>
        .pure (by simp only [SelectItem.rewritten, lowering_name, same])
  case expr =>
    exact (Expression.disjunction_agree nested).bind fun e other sameExpr =>
      asName_agree.optional.map fun name other sameName => by
        simp only [SelectItem.rewritten, lowering_asName, sameExpr, sameName]

omit nested in
theorem distinctness_agree : Agree n m 0 id distinctness distinctness := by
  apply Agree.map (Agree.optional ((keywordFor_agree true (by decide)).firstOf
    (.cons (keywordFor_agree false (by decide)) .nil)))
  intro flag other same
  rw [Option.map_id, id, id] at same
  rw [same]

theorem selectClause_agree :
    Agree (n + 1) (m + 1) 1 (fun found => (found.1, found.2.map (SelectItem.rewritten lowering)))
      (selectClause first) (selectClause second) := by
  apply (opening_agree (keyword_agree (by decide))).bind
  intro _ _ _
  apply (opening_agree distinctness_agree).bind
  rintro distinct _ ⟨⟩
  exact Agree.map (committed_agree .selectClause
    ((selectItem_agree nested).separatedList1 (symbol_agree (by decide)) ⟨_, rfl⟩))
      fun items other same => by simp only [same]

/-! ## Sources -/

theorem source_agree :
    Agree (n + 1) (m + 1) 1 (Source.rewritten lowering) (source first) (source second) := by
  apply Agree.orElse
  · exact (Expression.bracketedQuery_agree nested).bind fun query other sameQuery =>
      asName_agree.optional.map fun name other sameName => by
        simp only [Source.rewritten, lowering_asName, sameQuery, sameName]
  · exact objectName_agree.bind fun table other sameTable =>
      asName_agree.optional.map fun name other sameName => by
        simp only [Source.rewritten, lowering_name, lowering_asName, sameTable, sameName]

omit nested in
theorem outerJoin_agree {word : String} (kind : JoinKind) (isKeyword : isKeyword word = true) :
    Agree n m 1 id (outerJoin word kind) (outerJoin word kind) :=
  (keyword_agree isKeyword).bind fun _ _ _ =>
    (keyword_agree (by decide)).optional.bind fun _ _ _ => .pure rfl

omit nested in
theorem joinKind_agree : Agree n m 1 id joinKind joinKind := by
  apply Agree.andThen (Agree.optional ((keywordFor_agree JoinKind.inner (by decide)).firstOf
    (.cons (outerJoin_agree _ (by decide)) (.cons (outerJoin_agree _ (by decide))
      (.cons (outerJoin_agree _ (by decide)) .nil)))))
  intro kind other same
  rw [Option.map_id, id, id] at same
  subst same
  exact (keyword_agree (by decide)).bind fun _ _ _ => .pure rfl

theorem joinCondition_agree :
    Agree (n + 1) (m + 1) 1 (Expr.rewritten lowering) (joinCondition first)
      (joinCondition second) :=
  (keyword_agree (by decide)).bind fun _ _ _ => Expression.disjunction_agree nested

theorem join_agree :
    Agree (n + 1) (m + 1) 1 (Join.rewritten lowering) (join first) (join second) := by
  have cross : Agree (n + 1) (m + 1) 1 id (do keyword "CROSS"; keyword "JOIN")
      (do keyword "CROSS"; keyword "JOIN") :=
    (keyword_agree (by decide)).bind fun _ _ _ => keyword_agree (by decide)
  apply cross.ifPresent
  · intro _ _ _
    exact (source_agree nested).map fun source other same => by
      simp only [Join.rewritten, JoinRule.rewritten, same]
  · apply joinKind_agree.bind
    rintro kind _ ⟨⟩
    apply (source_agree nested).bind
    intro source other sameSource
    exact (joinCondition_agree nested).optional.map fun condition other same => by
      simp only [Join.rewritten, JoinRule.rewritten, Expr.optionRewritten_eq_map, sameSource, same]
  · exact Nat.le_refl 1

theorem sourceWithJoins_agree :
    Agree (n + 1) (m + 1) 1 (SourceWithJoins.rewritten lowering) (sourceWithJoins first)
      (sourceWithJoins second) :=
  (source_agree nested).bind fun source other sameSource =>
    ((join_agree nested).many ⟨_, rfl⟩).map fun joins other same => by
      simp only [SourceWithJoins.rewritten, Join.listRewritten_eq_map, sameSource, same]

theorem fromClause_agree :
    Agree (n + 1) (m + 1) 1 (List.map (SourceWithJoins.rewritten lowering)) (fromClause first)
      (fromClause second) :=
  clause_agree .fromClause (keyword_agree (by decide))
    ((sourceWithJoins_agree nested).separatedList1 (symbol_agree (by decide)) ⟨_, rfl⟩)

/-! ## Conditions, groups, order and page -/

theorem whereClause_agree :
    Agree (n + 1) (m + 1) 1 (Expr.rewritten lowering) (whereClause first) (whereClause second) :=
  clause_agree .whereClause (keyword_agree (by decide)) (Expression.disjunction_agree nested)

theorem groupByClause_agree :
    Agree (n + 1) (m + 1) 1 (List.map (Expr.rewritten lowering)) (groupByClause first)
      (groupByClause second) :=
  clause_agree .groupByClause
    ((keyword_agree (by decide)).bind fun _ _ _ => keyword_agree (by decide))
    ((Expression.disjunction_agree nested).separatedList1 (symbol_agree (by decide)) ⟨_, rfl⟩)

theorem havingClause_agree :
    Agree (n + 1) (m + 1) 1 (Expr.rewritten lowering) (havingClause first) (havingClause second) :=
  clause_agree .havingClause (keyword_agree (by decide)) (Expression.disjunction_agree nested)

theorem orderItem_agree :
    Agree (n + 1) (m + 1) 1 (OrderItem.rewritten lowering) (orderItem first)
      (orderItem second) := by
  apply (Expression.disjunction_agree nested).bind
  intro e other sameExpr
  apply Agree.map (Agree.optional ((keywordFor_agree true (by decide)).firstOf
    (.cons (keywordFor_agree false (by decide)) .nil)))
  intro ascending other same
  rw [Option.map_id, id, id] at same
  simp only [OrderItem.rewritten, sameExpr, same]

theorem orderByClause_agree :
    Agree (n + 1) (m + 1) 1 (List.map (OrderItem.rewritten lowering)) (orderByClause first)
      (orderByClause second) :=
  clause_agree .orderByClause
    ((keyword_agree (by decide)).bind fun _ _ _ => keyword_agree (by decide))
    ((orderItem_agree nested).separatedList1 (symbol_agree (by decide)) ⟨_, rfl⟩)

omit nested in
theorem limitClause_agree : Agree n m 1 id limitClause limitClause :=
  clause_agree .limitClause (keyword_agree (by decide)) rowCount_agree

omit nested in
theorem offsetClause_agree : Agree n m 1 id offsetClause offsetClause :=
  clause_agree .offsetClause (keyword_agree (by decide)) rowCount_agree

omit nested in
theorem page_agree : Agree n m 0 id page page := by
  apply limitClause_agree.ifPresent
  · rintro limit _ ⟨⟩
    exact offsetClause_agree.optional.map fun offset other same => by
      rw [Option.map_id, id, id] at same
      rw [same]
  · apply offsetClause_agree.optional.bind
    intro offset other sameOffset
    exact limitClause_agree.optional.map fun limit other sameLimit => by
      rw [Option.map_id, id, id] at sameOffset sameLimit
      rw [sameOffset, sameLimit]
  · exact Nat.zero_le 1

theorem query_agree :
    Agree (n + 1) (m + 1) 1 (Query.rewritten lowering) (query first) (query second) := by
  apply (selectClause_agree nested).bind
  rintro ⟨distinct, items⟩ ⟨otherDistinct, otherItems⟩ sameSelect
  apply (fromClause_agree nested).optional.bind
  intro sources otherSources sameSources
  apply (whereClause_agree nested).optional.bind
  intro condition otherCondition sameCondition
  apply (groupByClause_agree nested).optional.bind
  intro groupBy otherGroupBy sameGroupBy
  apply (havingClause_agree nested).optional.bind
  intro having otherHaving sameHaving
  apply (orderByClause_agree nested).optional.bind
  intro orderBy otherOrderBy sameOrderBy
  apply page_agree.bind
  rintro ⟨limit, offset⟩ _ ⟨⟩
  obtain ⟨rfl, sameItems⟩ := Prod.mk.inj sameSelect
  apply Agree.pure
  simp only [Query.rewritten, SelectItem.listRewritten_eq_map, SourceWithJoins.listRewritten_eq_map,
    Expr.optionRewritten_eq_map, Expr.listRewritten_eq_map, OrderItem.listRewritten_eq_map,
    map_getD_nil, sameItems, sameSources, sameCondition, sameGroupBy, sameHaving,
    sameOrderBy]

end Parts

end Clause

/-! ## Closing the recursion -/

namespace Nested

theorem agrees_of_zero {n m : Nat} (first second : Nested) (none : n = 0 ∨ m = 0) :
    Agrees n m first second := by
  have vacuous : ∀ {α γ : Type} (view : α → γ) (p q : Lexer α), Agree n m 1 view p q := by
    intro α γ view p q
    constructor
    intro s t sBound tBound
    omega
  exact ⟨vacuous _ _ _, vacuous _ _ _, vacuous _ _ _, vacuous _ _ _⟩

/-- The readers with clocks agree on texts that are shorter than the clocks. -/
theorem agrees_within (clock other : List Char) :
    Agrees clock.length other.length (within clock) (within other) := by
  induction clock generalizing other with
  | nil => exact agrees_of_zero _ _ (.inl rfl)
  | cons _ clock ih =>
      cases other with
      | nil => exact agrees_of_zero _ _ (.inr rfl)
      | cons _ other =>
          exact ⟨Expression.disjunction_agree (ih other), Expression.negation_agree (ih other),
            Expression.signed_agree (ih other), Clause.asPart_agree (Clause.query_agree (ih other))⟩

end Nested

theorem readQuery_agree {n m : Nat} :
    Agree n m 1 (Query.rewritten lowering) readQuery readQuery := by
  constructor
  intro s t _ _ restyled
  exact (Clause.query_agree (Nested.agrees_within s t)).matched s.length.lt_succ_self
    t.length.lt_succ_self restyled

theorem within_leftover (s : List Char) :
    Within (⟨[⟨s, .leftover⟩, ⟨s, .trailing⟩]⟩ : ReadError) s := by
  intro place member
  obtain rfl : place = s := by simpa [Placed.places] using member
  exact List.suffix_rfl

theorem endOfText_agree {n m : Nat} : Agree n m 0 id endOfText endOfText := by
  constructor
  intro s t _ _ restyled
  cases s with
  | nil =>
      rw [restyled.eq_nil]
      exact .ok rfl .nil (.refl []) (.refl [])
  | cons c s =>
      cases t with
      | nil => cases restyled.symm.eq_nil
      | cons d t => exact .halt (within_leftover _) (within_leftover _)

theorem readStatement_agree {n m : Nat} :
    Agree n m 1 (Query.rewritten lowering) readStatement readStatement := by
  apply (Clause.opening_agree spaces_agree).andThen
  intro _ _ _
  apply readQuery_agree.bind
  intro query other same
  apply (Clause.opening_agree (symbol_agree (by decide))).optional.bind
  intro _ _ _
  exact endOfText_agree.bind fun _ _ _ => .pure same

/-- Neither the case of letters nor the layout matters outside quotes: of two
texts that differ in style only, both are accepted or neither is, and the
statements are the same but for the case of their names. -/
theorem parse_restyled {first second : String} (restyled : Restyled first.toList second.toList) :
    (parse first).isOk = (parse second).isOk ∧
      ∀ query other, parse first = .ok query → parse second = .ok other →
        query.lowered = other.lowered := by
  have matched := readStatement_agree.matched (Nat.lt_succ_self _) (Nat.lt_succ_self _) restyled
  unfold parse
  generalize readStatement first.toList = reply at matched
  generalize readStatement second.toList = otherReply at matched
  cases matched with
  | ok same _ _ _ =>
      refine ⟨rfl, ?_⟩
      rintro query other ⟨⟩ ⟨⟩
      exact same
  | miss _ _ => exact ⟨rfl, fun _ _ read => by cases read⟩
  | halt _ _ => exact ⟨rfl, fun _ _ read => by cases read⟩
  | torn _ _ => exact ⟨rfl, fun _ _ read => by cases read⟩

/-- A statement on one line with capital keywords. -/
def capitalReport : String :=
  "SELECT \"Id\", 1E3 FROM Emp"

/-- The same statement on two lines with small keywords. -/
def smallReport : String :=
  "select  \"Id\", 1e3\nfrom EMP"

theorem parse_smallReport :
    Restyled capitalReport.toList smallReport.toList ∧ (parse capitalReport).isOk = true ∧
      (parse smallReport).isOk = true ∧
      ∀ query other, parse capitalReport = .ok query → parse smallReport = .ok other →
        query.lowered = other.lowered := by
  have restyled : Restyled capitalReport.toList smallReport.toList := by decide +kernel
  have accepted : (parse capitalReport).isOk = true := by decide +kernel
  obtain ⟨both, same⟩ := parse_restyled restyled
  exact ⟨restyled, accepted, both ▸ accepted, same⟩

end TripleTables.Sql
