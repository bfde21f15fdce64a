import TripleTables.Proofs.Sql.Lexeme
import TripleTables.Proofs.Sql.Parts
import TripleTables.Sql.Statement

/-!
# Trees that are read

A tree is regular if all its nodes are: the operands of every node are grouped
as the levels of the operators ask for, and names, constants and lists are such
as a text can hold.  Everything that is read is regular.  The proof follows the
grammar; at every level it keeps track of how loosely the outermost operator of
the tree may bind.
-/

namespace TripleTables.Sql

open Reader Lexer

/-! ## Regular trees -/

/-- The node itself, apart from how it is grouped, is one that a text can hold.
The sign of a constant belongs to the constant. -/
def Expr.Spelled : Expr → Prop
  | .column name => name ≠ []
  | .literal value => value.Spelled
  | .unary .minus operand => Expression.negated operand = .unary .minus operand
  | .inList _ _ items => items ≠ []
  | .call name args distinct star =>
      IsWord name.toList ∧ Expression.isFunctionName name.toList = true ∧
        (star = true → args = [] ∧ distinct = false)
  | .compareAny op _ _ | .compareAll op _ _ => op.level = 3
  | .case _ branches _ => branches ≠ []
  | .unary .not _ | .unary .plus _ | .parameter | .binary _ _ _ | .nested _ | .like _ _ _
  | .between _ _ _ _ | .inQuery _ _ _ | .isNull _ _ | .existsIn _ | .subquery _ => True

/-- The node is grouped as its levels ask for, and a text can hold it. -/
def Part.Regular : Part → Prop
  | .expr e => e.Grouped ∧ e.Spelled
  | .item (.qualifiedWildcard name) => name ≠ []
  | .item .wildcard | .item (.expr _ _) => True
  | .source (.table name _) => name ≠ []
  | .source (.derived _ _) => True
  | .query body =>
      body.items ≠ [] ∧ (∀ rows ∈ body.limit, rows ≤ maxRows) ∧
        ∀ rows ∈ body.offset, rows ≤ maxRows

/-- All nodes of the expression are regular. -/
def Expr.Regular (e : Expr) : Prop :=
  Part.Every Part.Regular e.parts

/-- All nodes of the query are regular. -/
def Query.Regular (query : Query) : Prop :=
  Part.Every Part.Regular query.parts

/-- The expression is regular and binds at least as tightly as a level. -/
def Expr.RegularFrom (level : Nat) (e : Expr) : Prop :=
  e.Regular ∧ level ≤ e.level

theorem Expr.RegularFrom.mono {lower level : Nat} {e : Expr} (looser : lower ≤ level)
    (regular : e.RegularFrom level) : e.RegularFrom lower :=
  ⟨regular.1, looser.trans regular.2⟩

theorem Expr.mem_parts_self (e : Expr) : .expr e ∈ e.parts := by
  cases e <;> simp [Expr.parts]

/-- A query that a text can hold selects something. -/
theorem Query.Regular.items_ne_nil {query : Query} (regular : query.Regular) :
    query.items ≠ [] :=
  (regular (.query query) (by cases query; simp [Query.parts])).1

theorem Expr.Regular.grouped {e : Expr} (regular : e.Regular) : e.Grouped :=
  (regular (.expr e) e.mem_parts_self).1

theorem Expr.Regular.spelled {e : Expr} (regular : e.Regular) : e.Spelled :=
  (regular (.expr e) e.mem_parts_self).2

/-- An expression is regular if its own node and everything below it are. -/
theorem Expr.regularFrom_node {e : Expr} {below : List Part} (split : e.parts = .expr e :: below)
    (grouped : e.Grouped) (spelled : e.Spelled) (inside : Part.Every Part.Regular below) :
    e.RegularFrom e.level := by
  refine ⟨?_, Nat.le_refl _⟩
  rw [Expr.Regular, split, Part.every_cons]
  exact ⟨⟨grouped, spelled⟩, inside⟩

/-- The readers for nested parts read regular trees. -/
structure Nested.ReadsRegular (nested : Nested) : Prop where
  expr : Yields nested.expr Expr.Regular
  negation : Yields nested.negation (Expr.RegularFrom 2)
  signed : Yields nested.signed (Expr.RegularFrom 7)
  query : Yields nested.query Query.Regular

/-! ## Lexemes -/

theorem Lexer.objectName_yields : Yields objectName fun name => name ≠ [] :=
  (Yields.separatedList1 (.any identifier)).mono fun _ isName => isName.1

theorem Lexer.rowCount_yields : Yields rowCount fun rows => rows ≤ maxRows := by
  constructor
  intro s rows rest read
  unfold rowCount at read
  split at read
  · split at read
    · rename_i inRange
      cases read
      exact inRange
    · contradiction
  all_goals contradiction

namespace Expression

/-! ## Operators -/

theorem operator_yields {holds : BinaryOp → Prop} (first : String × BinaryOp)
    (rest : List (String × BinaryOp)) (isGood : ∀ entry ∈ first :: rest, holds entry.2) :
    Yields (operator first rest) holds := by
  have one : ∀ entry ∈ first :: rest,
      Yields (do Lexer.text entry.1; return entry.2 : Lexer BinaryOp) holds := by
    intro entry member
    apply Yields.andThen
    intro _
    exact .pure (isGood entry member)
  apply token_yields
  apply Yields.firstOf (one first (by simp))
  intro other member
  obtain ⟨entry, inRest, rfl⟩ := List.mem_map.mp member
  exact one entry (by simp [inRest])

theorem comparisonOperator_yields : Yields comparisonOperator fun op => op.level = 3 :=
  operator_yields _ _ (by decide)

theorem additiveOperator_yields : Yields additiveOperator fun op => op.level = 5 :=
  operator_yields _ _ (by decide)

theorem multiplicativeOperator_yields : Yields multiplicativeOperator fun op => op.level = 6 :=
  operator_yields _ _ (by decide)

theorem bitwiseOperator_yields : Yields bitwiseOperator fun op => op.level = 4 := by
  apply token_yields
  apply Yields.firstOf
  · exact .andThen _ fun _ => .pure rfl
  · simp only [List.mem_cons, List.not_mem_nil, or_false, forall_eq_or_imp, forall_eq]
    constructor
    · exact .andThen _ fun _ => .andThen _ fun _ => .pure rfl
    · exact .andThen _ fun _ => .pure rfl

/-- A chain of operators of one level groups to the left. -/
theorem chain_yields {operand : Lexer Expr} {op : Lexer BinaryOp} {level : Nat}
    (operandYields : Yields operand (Expr.RegularFrom (level + 1)))
    (opYields : Yields op fun op => op.level = level) :
    Yields (chain operand op) (Expr.RegularFrom level) := by
  apply Yields.bind operandYields
  intro first firstRegular
  apply Yields.repeating (firstRegular.mono (Nat.le_succ level))
  intro left leftRegular
  apply Yields.bind opYields
  intro op onLevel
  apply Yields.bind operandYields
  intro right rightRegular
  apply Yields.pure
  obtain ⟨leftNodes, leftLevel⟩ := leftRegular
  obtain ⟨rightNodes, rightLevel⟩ := rightRegular
  subst level
  exact Expr.regularFrom_node rfl ⟨leftLevel, rightLevel⟩ trivial
    (Part.every_append.mpr ⟨leftNodes, rightNodes⟩)

/-! ## What stands for itself -/

section Primary

variable {nested : Nested} (regular : nested.ReadsRegular)

include regular

theorem bracketedQuery_yields : Yields (bracketedQuery nested) Query.Regular := by
  apply Yields.andThen
  intro _
  apply Yields.bind regular.query
  intro query queryRegular
  apply Yields.andThen
  intro _
  exact .pure queryRegular

theorem bracketedList_yields :
    Yields (bracketedList nested) fun items => items ≠ [] ∧ ∀ e ∈ items, e.Regular := by
  apply Yields.andThen
  intro _
  apply Yields.bind (Yields.separatedList1 regular.expr)
  intro items itemsRegular
  apply Yields.andThen
  intro _
  exact .pure itemsRegular

theorem bracketed_yields : Yields (bracketed nested) (Expr.RegularFrom 8) := by
  apply Yields.orAfterFailure
  · apply Yields.bind (bracketedQuery_yields regular)
    intro query queryRegular
    exact .pure (Expr.regularFrom_node rfl trivial trivial queryRegular)
  · apply Yields.andThen
    intro _
    apply Yields.bind regular.expr
    intro inner innerRegular
    apply Yields.andThen
    intro _
    exact .pure (Expr.regularFrom_node rfl trivial trivial innerRegular)

theorem branch_yields :
    Yields (branch nested) fun branch => Part.Every Part.Regular branch.parts := by
  apply Yields.andThen
  intro _
  apply Yields.bind regular.expr
  intro condition conditionRegular
  apply Yields.andThen
  intro _
  apply Yields.bind regular.expr
  intro result resultRegular
  exact .pure (Part.every_append.mpr ⟨conditionRegular, resultRegular⟩)

theorem caseOperand_yields :
    Yields (caseOperand nested) fun operand => ∀ e ∈ operand, e.Regular := by
  apply Yields.andThen
  intro follows
  cases follows with
  | true => exact .pure (by simp)
  | false =>
      apply Yields.bind regular.expr
      intro operand operandRegular
      exact .pure (by simpa using operandRegular)

theorem caseExpression_yields : Yields (caseExpression nested) (Expr.RegularFrom 8) := by
  apply Yields.andThen
  intro _
  apply Yields.bind (caseOperand_yields regular)
  intro operand operandRegular
  apply Yields.bind (Yields.many1 (branch_yields regular))
  rintro branches ⟨some, branchesRegular⟩
  apply Yields.bind (Yields.optional (.andThen (keyword "ELSE") fun _ => regular.expr))
  intro otherwise otherwiseRegular
  apply Yields.andThen
  intro _
  apply Yields.pure
  refine Expr.regularFrom_node rfl trivial some ?_
  simp only [Part.every_append, Expr.every_optionParts, Branch.listParts_eq,
    Part.every_flatMap]
  exact ⟨operandRegular, branchesRegular, otherwiseRegular⟩

theorem existsCondition_yields : Yields (existsCondition nested) (Expr.RegularFrom 8) := by
  apply Yields.andThen
  intro _
  apply Yields.bind (bracketedQuery_yields regular)
  intro query queryRegular
  exact .pure (Expr.regularFrom_node rfl trivial trivial queryRegular)

theorem call_yields : Yields (call nested) (Expr.RegularFrom 8) := by
  apply Yields.bind (token_yields (word_yields isFunctionName))
  rintro name ⟨isWord, isName⟩
  apply Yields.andThen
  intro _
  apply Yields.andThen
  intro star
  cases star with
  | some _ =>
      apply Yields.andThen
      intro _
      exact .pure (Expr.regularFrom_node rfl trivial ⟨isWord, isName, fun _ => ⟨rfl, rfl⟩⟩
        Part.every_nil)
  | none =>
      apply Yields.andThen
      intro distinct
      apply Yields.bind (Yields.separatedList regular.expr)
      intro args argsRegular
      apply Yields.andThen
      intro _
      exact .pure (Expr.regularFrom_node rfl trivial
        ⟨isWord, isName, fun star => by contradiction⟩ (by simpa [Expr.Regular] using argsRegular))

end Primary

theorem regularFrom_literal {value : Literal} (spelled : value.Spelled) :
    (Expr.literal value).RegularFrom 8 :=
  Expr.regularFrom_node rfl trivial spelled Part.every_nil

theorem typedString_yields {holds : Literal → Prop} (word : String) {literal : String → Literal}
    (isGood : ∀ value, holds (literal value)) : Yields (typedString word literal) holds :=
  .andThen _ fun _ => .andThen _ fun value => .pure (isGood value)

theorem bracedLiteral_yields : Yields bracedLiteral (Expr.RegularFrom 8) := by
  apply Yields.andThen
  intro _
  have value : Yields (firstOf (typedString "TS" .timestamp)
      [typedString "D" .date, typedString "T" .time]) Literal.Spelled := by
    apply Yields.firstOf (typedString_yields _ fun _ => trivial)
    simp only [List.mem_cons, List.not_mem_nil, or_false, forall_eq_or_imp, forall_eq]
    exact ⟨typedString_yields _ fun _ => trivial, typedString_yields _ fun _ => trivial⟩
  apply Yields.bind value
  intro value spelled
  apply Yields.andThen
  intro _
  exact .pure (regularFrom_literal spelled)

theorem typedLiteral_yields : Yields typedLiteral (Expr.RegularFrom 8) := by
  have value : Yields (firstOf (typedString "DATE" .date)
      [typedString "TIMESTAMP" .timestamp, typedString "TIME" .time]) Literal.Spelled := by
    apply Yields.firstOf (typedString_yields _ fun _ => trivial)
    simp only [List.mem_cons, List.not_mem_nil, or_false, forall_eq_or_imp, forall_eq]
    exact ⟨typedString_yields _ fun _ => trivial, typedString_yields _ fun _ => trivial⟩
  apply Yields.bind value
  intro value spelled
  exact .pure (regularFrom_literal spelled)

/-- No integer that a text can hold is the least one. -/
theorem negated_integer {value : Int} (inRange : value.natAbs ≤ maxInteger) :
    negated (.literal (.integer value)) = .literal (.integer (-value)) := by
  refine if_neg ?_
  rintro rfl
  exact absurd inRange (by decide)

/-- A sign goes into a constant and stands before anything else. -/
theorem regularFrom_negated {operand : Expr} (operandRegular : operand.RegularFrom 7) :
    (negated operand).RegularFrom 7 := by
  obtain ⟨regular, tight⟩ := operandRegular
  have signed : negated operand = .unary .minus operand →
      (negated operand).RegularFrom 7 := by
    intro unchanged
    rw [unchanged]
    exact Expr.regularFrom_node rfl tight unchanged regular
  cases operand with
  | literal value =>
      have spelled : value.Spelled := regular.spelled
      cases value with
      | integer value =>
          rw [negated_integer spelled]
          refine (regularFrom_literal ?_).mono (by decide)
          rwa [Literal.Spelled, Int.natAbs_neg]
      | decimal digits =>
          refine (regularFrom_literal ?_).mono (by decide)
          simp only [Literal.Spelled, String.toList_append] at spelled ⊢
          exact .minus spelled
      | _ => exact signed rfl
  | _ => exact signed rfl

section Levels

variable {nested : Nested} (regular : nested.ReadsRegular)

include regular

theorem primary_yields : Yields (primary nested) (Expr.RegularFrom 8) := by
  have word : ∀ word literal, literal.Spelled →
      Yields (wordLiteral word literal) (Expr.RegularFrom 8) :=
    fun _ _ spelled => .andThen _ fun _ => .pure (regularFrom_literal spelled)
  apply Yields.firstOf (bracketed_yields regular)
  simp only [List.mem_cons, List.not_mem_nil, or_false, forall_eq_or_imp, forall_eq]
  refine ⟨?_, bracedLiteral_yields, typedLiteral_yields, ?_, ?_, word _ _ trivial,
    word _ _ trivial, word _ _ trivial, caseExpression_yields regular,
    existsCondition_yields regular, call_yields regular, ?_⟩
  · exact .andThen _ fun _ => .pure (Expr.regularFrom_node rfl trivial trivial Part.every_nil)
  · exact .andThen _ fun _ => .pure (regularFrom_literal trivial)
  · exact .bind number_yields fun _ isNumber =>
      .pure (regularFrom_literal (Literal.spelled_numberLiteral isNumber))
  · exact .bind objectName_yields fun _ isName =>
      .pure (Expr.regularFrom_node rfl trivial isName Part.every_nil)

/-! ## Levels -/

theorem signed_yields : Yields (signed nested) (Expr.RegularFrom 7) := by
  apply Yields.andThen
  intro minus
  cases minus with
  | some _ =>
      apply Yields.bind regular.signed
      intro operand operandRegular
      exact .pure (regularFrom_negated operandRegular)
  | none =>
      apply Yields.andThen
      intro plus
      cases plus with
      | some _ =>
          apply Yields.bind regular.signed
          rintro operand ⟨operandRegular, tight⟩
          exact .pure (Expr.regularFrom_node rfl tight trivial operandRegular)
      | none => exact (primary_yields regular).mono fun _ isRegular => isRegular.mono (by decide)

theorem multiplicative_yields : Yields (multiplicative nested) (Expr.RegularFrom 6) :=
  chain_yields (signed_yields regular) multiplicativeOperator_yields

theorem additive_yields : Yields (additive nested) (Expr.RegularFrom 5) :=
  chain_yields (multiplicative_yields regular) additiveOperator_yields

theorem bitwise_yields : Yields (bitwise nested) (Expr.RegularFrom 4) :=
  chain_yields (additive_yields regular) bitwiseOperator_yields

section Predicates

variable {left : Expr} (leftRegular : left.RegularFrom 3)

include leftRegular

theorem quantified_yields : Yields (quantified nested left) (Expr.RegularFrom 3) := by
  apply Yields.bind comparisonOperator_yields
  intro op isComparison
  apply Yields.andThen
  intro all
  apply Yields.bind (bracketedQuery_yields regular)
  intro query queryRegular
  apply Yields.pure
  have inside := Part.every_append.mpr ⟨leftRegular.1, queryRegular⟩
  cases all with
  | true => exact Expr.regularFrom_node rfl leftRegular.2 isComparison inside
  | false => exact Expr.regularFrom_node rfl leftRegular.2 isComparison inside

theorem comparison_yields : Yields (comparison nested left) (Expr.RegularFrom 3) := by
  apply Yields.bind comparisonOperator_yields
  intro op isComparison
  apply Yields.bind (bitwise_yields regular)
  rintro right ⟨rightRegular, rightLevel⟩
  apply Yields.pure
  have grouped : (Expr.binary op left right).Grouped := by
    rw [Expr.Grouped, isComparison]
    exact ⟨leftRegular.2, rightLevel⟩
  exact (Expr.regularFrom_node rfl grouped trivial
    (Part.every_append.mpr ⟨leftRegular.1, rightRegular⟩)).mono isComparison.ge

omit regular in
theorem nullTest_yields : Yields (nullTest left) (Expr.RegularFrom 3) :=
  .andThen _ fun _ => .andThen _ fun _ => .andThen _ fun _ =>
    .pure (Expr.regularFrom_node rfl leftRegular.2 trivial leftRegular.1)

theorem membership_yields (isNegated : Bool) :
    Yields (membership nested isNegated left) (Expr.RegularFrom 3) := by
  apply Yields.andThen
  intro _
  apply Yields.orAfterFailure
  · apply Yields.bind (bracketedQuery_yields regular)
    intro query queryRegular
    exact .pure (Expr.regularFrom_node rfl leftRegular.2 trivial
      (Part.every_append.mpr ⟨leftRegular.1, queryRegular⟩))
  · apply Yields.bind (bracketedList_yields regular)
    rintro items ⟨some, itemsRegular⟩
    exact .pure (Expr.regularFrom_node rfl leftRegular.2 some
      (Part.every_append.mpr ⟨leftRegular.1, by simpa [Expr.Regular] using itemsRegular⟩))

theorem afterNot_yields (isNegated : Bool) :
    Yields (afterNot nested left isNegated) (Expr.RegularFrom 3) := by
  apply Yields.andThen
  intro like
  cases like with
  | some _ =>
      apply Yields.bind (bitwise_yields regular)
      rintro pattern ⟨patternRegular, patternLevel⟩
      exact .pure (Expr.regularFrom_node rfl ⟨leftRegular.2, patternLevel⟩ trivial
        (Part.every_append.mpr ⟨leftRegular.1, patternRegular⟩))
  | none =>
      apply Yields.andThen
      intro between
      cases between with
      | some _ =>
          apply Yields.bind (bitwise_yields regular)
          rintro low ⟨lowRegular, lowLevel⟩
          apply Yields.andThen
          intro _
          apply Yields.bind (bitwise_yields regular)
          rintro high ⟨highRegular, highLevel⟩
          have bounds := Part.every_append.mpr ⟨lowRegular, highRegular⟩
          exact .pure (Expr.regularFrom_node rfl ⟨leftRegular.2, lowLevel, highLevel⟩ trivial
            (Part.every_append.mpr ⟨leftRegular.1, bounds⟩))
      | none => exact membership_yields regular leftRegular _

theorem negatable_yields : Yields (negatable nested left) (Expr.RegularFrom 3) :=
  .andThen _ fun _ => afterNot_yields regular leftRegular _

end Predicates

theorem predicate_yields : Yields (predicate nested) (Expr.RegularFrom 3) := by
  apply Yields.bind (bitwise_yields regular)
  intro first firstRegular
  apply Yields.repeating (firstRegular.mono (by decide))
  intro left leftRegular
  apply Yields.firstOf (quantified_yields regular leftRegular)
  simp only [List.mem_cons, List.not_mem_nil, or_false, forall_eq_or_imp, forall_eq]
  exact ⟨comparison_yields regular leftRegular, nullTest_yields leftRegular,
    negatable_yields regular leftRegular⟩

theorem negation_yields : Yields (negation nested) (Expr.RegularFrom 2) := by
  apply Yields.orElse
  · apply Yields.andThen
    intro _
    apply Yields.bind regular.negation
    rintro operand ⟨operandRegular, operandLevel⟩
    exact .pure (Expr.regularFrom_node rfl operandLevel trivial operandRegular)
  · exact (predicate_yields regular).mono fun _ isRegular => isRegular.mono (by decide)

theorem conjunction_yields : Yields (conjunction nested) (Expr.RegularFrom 1) :=
  chain_yields (negation_yields regular) (.andThen _ fun _ => .pure rfl)

theorem disjunction_yields : Yields (disjunction nested) (Expr.RegularFrom 0) :=
  chain_yields (conjunction_yields regular) (.andThen _ fun _ => .pure rfl)

end Levels

end Expression

/-! ## Clauses -/

namespace Clause

section Parts

variable {α : Type} {holds : α → Prop}

theorem committed_yields {context : Context} {p : Lexer α} (yields : Yields p holds) :
    Yields (committed context p) holds :=
  .mapErrors yields (by simp) (by simp)

theorem clause_yields {context : Context} {keywords : Lexer Unit} {body : Lexer α}
    (yields : Yields body holds) : Yields (clause context keywords body) holds :=
  .andThen _ fun _ => committed_yields yields

/-- A clause that lists some values, or is absent. -/
theorem listClause_yields {context : Context} {keywords separator : Lexer Unit} {p : Lexer α}
    (yields : Yields p holds) :
    Yields (optional (clause context keywords (separatedList1 separator p)))
      fun found => ∀ value ∈ found.getD [], holds value := by
  apply (Yields.optional (clause_yields (.separatedList1 yields))).mono
  intro found inside
  cases found with
  | none => simp
  | some values => exact (inside values rfl).2

theorem asPart_yields {p : ClauseReader α} (yields : Yields p holds) : Yields (asPart p) holds :=
  .mapErrors yields (by simp) (by simp)

end Parts

variable {nested : Nested} (regular : nested.ReadsRegular)

include regular

theorem expression_yields : Yields (expression nested) Expr.Regular :=
  (Expression.disjunction_yields regular).mono fun _ isRegular => isRegular.1

theorem selectItem_yields :
    Yields (selectItem nested) fun item => Part.Every Part.Regular item.parts := by
  apply Yields.firstOf
  · apply Yields.andThen
    intro _
    apply Yields.pure
    simp [SelectItem.parts, Part.Regular]
  · simp only [List.mem_cons, List.not_mem_nil, or_false, forall_eq_or_imp, forall_eq]
    constructor
    · apply Yields.bind objectName_yields
      intro name isName
      apply Yields.andThen
      intro _
      apply Yields.andThen
      intro _
      apply Yields.pure
      simpa [SelectItem.parts, Part.Regular] using isName
    · apply Yields.bind (expression_yields regular)
      intro e exprRegular
      apply Yields.andThen
      intro name
      apply Yields.pure
      simpa [SelectItem.parts, Part.Regular, Expr.Regular] using exprRegular

theorem source_yields :
    Yields (source nested) fun source => Part.Every Part.Regular source.parts := by
  apply Yields.orElse
  · apply Yields.bind (Expression.bracketedQuery_yields regular)
    intro query queryRegular
    apply Yields.andThen
    intro name
    apply Yields.pure
    simpa [Source.parts, Part.Regular, Query.Regular] using queryRegular
  · apply Yields.bind objectName_yields
    intro name isName
    apply Yields.andThen
    intro asName
    apply Yields.pure
    simpa [Source.parts, Part.Regular] using isName

theorem join_yields : Yields (join nested) fun join => Part.Every Part.Regular join.parts := by
  apply Yields.andThen
  intro cross
  cases cross with
  | some _ =>
      apply Yields.bind (source_yields regular)
      intro source sourceRegular
      apply Yields.pure
      simpa [Join.parts, JoinRule.parts] using sourceRegular
  | none =>
      apply Yields.andThen
      intro kind
      apply Yields.bind (source_yields regular)
      intro source sourceRegular
      apply Yields.bind
        (Yields.optional (.andThen (keyword "ON") fun _ => expression_yields regular))
      intro condition conditionRegular
      apply Yields.pure
      simp only [Join.parts, JoinRule.parts, Part.every_append, Expr.every_optionParts]
      exact ⟨sourceRegular, conditionRegular⟩

theorem sourceWithJoins_yields :
    Yields (sourceWithJoins nested) fun source => Part.Every Part.Regular source.parts := by
  apply Yields.bind (source_yields regular)
  intro source sourceRegular
  apply Yields.bind (Yields.many (join_yields regular))
  intro joins joinsRegular
  apply Yields.pure
  simp only [SourceWithJoins.parts, Part.every_append, Join.listParts_eq, Part.every_flatMap]
  exact ⟨sourceRegular, joinsRegular⟩

theorem orderItem_yields :
    Yields (orderItem nested) fun key => Part.Every Part.Regular key.parts := by
  apply Yields.bind (expression_yields regular)
  intro e exprRegular
  apply Yields.andThen
  intro ascending
  exact .pure exprRegular

omit regular in
theorem page_yields :
    Yields page fun found =>
      (∀ rows ∈ found.1, rows ≤ maxRows) ∧ ∀ rows ∈ found.2, rows ≤ maxRows := by
  have limit : Yields (optional limitClause) fun found => ∀ rows ∈ found, rows ≤ maxRows :=
    .optional (clause_yields rowCount_yields)
  have offset : Yields (optional offsetClause) fun found => ∀ rows ∈ found, rows ≤ maxRows :=
    .optional (clause_yields rowCount_yields)
  apply Yields.bind limit
  intro found limitInRange
  cases found with
  | some rows =>
      apply Yields.bind offset
      intro skipped offsetInRange
      exact .pure ⟨limitInRange, offsetInRange⟩
  | none =>
      apply Yields.bind offset
      intro skipped offsetInRange
      apply Yields.bind limit
      intro kept limitInRange
      exact .pure ⟨limitInRange, offsetInRange⟩

theorem query_yields : Yields (query nested) Query.Regular := by
  have items : Yields (selectClause nested) fun found =>
      found.2 ≠ [] ∧ ∀ item ∈ found.2, Part.Every Part.Regular item.parts := by
    apply Yields.andThen
    intro _
    apply Yields.andThen
    intro distinct
    apply Yields.bind (committed_yields (Yields.separatedList1 (selectItem_yields regular)))
    intro items itemsRegular
    exact .pure itemsRegular
  apply Yields.bind items
  rintro ⟨distinct, items⟩ ⟨some, itemsRegular⟩
  apply Yields.bind (listClause_yields (sourceWithJoins_yields regular))
  intro sources sourcesRegular
  apply Yields.bind (Yields.optional (clause_yields (expression_yields regular)))
  intro condition conditionRegular
  apply Yields.bind (listClause_yields (expression_yields regular))
  intro groupBy groupByRegular
  apply Yields.bind (Yields.optional (clause_yields (expression_yields regular)))
  intro having havingRegular
  apply Yields.bind (listClause_yields (orderItem_yields regular))
  intro orderBy orderByRegular
  apply Yields.bind page_yields
  rintro ⟨limit, offset⟩ ⟨limitInRange, offsetInRange⟩
  apply Yields.pure
  simp only [Query.Regular, Query.parts, Part.every_cons, Part.every_append,
    Expr.every_optionParts, Expr.listParts_eq, SelectItem.listParts_eq,
    SourceWithJoins.listParts_eq, OrderItem.listParts_eq, Part.every_flatMap]
  exact ⟨⟨some, limitInRange, offsetInRange⟩, itemsRegular, sourcesRegular, conditionRegular,
    groupByRegular, havingRegular, orderByRegular⟩

end Clause

/-! ## Whole texts -/

/-- The readers with a clock read regular trees. -/
theorem Nested.readsRegular_within (clock : List Char) : (Nested.within clock).ReadsRegular := by
  induction clock with
  | nil =>
      exact ⟨⟨by simp [within, exprAt, Lexer.fail]⟩, ⟨by simp [within, negationAt, Lexer.fail]⟩,
        ⟨by simp [within, signedAt, Lexer.fail]⟩, ⟨by simp [within, queryAt, Lexer.fail]⟩⟩
  | cons _ clock ih =>
      exact ⟨Clause.expression_yields ih, Expression.negation_yields ih,
        Expression.signed_yields ih, Clause.asPart_yields (Clause.query_yields ih)⟩

theorem readExpr_yields : Yields readExpr Expr.Regular :=
  ⟨fun {s _ _} read => (Clause.expression_yields (Nested.readsRegular_within s)).of_ok read⟩

theorem readQuery_yields : Yields readQuery Query.Regular :=
  ⟨fun {s _ _} read => (Clause.query_yields (Nested.readsRegular_within s)).of_ok read⟩

/-- In an expression that is read, the operands of every node, also of those in
lists, branches and subqueries, bind as tightly as the node needs. -/
theorem grouped_of_readExpr {s rest : List Char} {e : Expr} (read : readExpr s = .ok e rest) :
    ∀ node, .expr node ∈ e.parts → node.Grouped :=
  fun node inside => (readExpr_yields.of_ok read (.expr node) inside).1

/-- An expression with operators of several levels. -/
def mixedExpr : Expr :=
  .unary .not (.binary .equal
    (.binary .minus (.binary .minus (.column ["a"]) (.column ["b"]))
      (.binary .times (.column ["c"]) (.literal (.integer 2))))
    (.literal (.integer 1)))

theorem grouped_of_readExpr_mixedExpr :
    readExpr "NOT a-b-c*2=1".toList = .ok mixedExpr [] ∧
      ∀ node, .expr node ∈ mixedExpr.parts → node.Grouped := by
  have read : readExpr "NOT a-b-c*2=1".toList = .ok mixedExpr [] := by
    cbv
  exact ⟨read, grouped_of_readExpr read⟩

end TripleTables.Sql
