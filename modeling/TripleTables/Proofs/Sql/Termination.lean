import TripleTables.Proofs.Sql.Insensitive
import TripleTables.Proofs.Sql.Progress

/-!
# Reading comes to an end

The readers for nested parts are closed by a clock, and so are the loops.  Here the
clocks are shown to make no difference.  Every reader of the grammar takes at least
one character before it hands on to a nested part, so its reply to a text is fixed by
the replies to shorter texts: the equations of the grammar, without any clock, have
exactly one solution, and statements are read by it.  In the same way every loop is the
only one that goes on until a round misses.

All readers move on within their text, and the places that an error tells of are ends
of the text.  What is left beside a query and an error is a text that is torn: where LIKE
is looked for and the kelvin sign stands for its K.
-/

namespace TripleTables.Sql

open Reader Lexer

/-- The readers for nested parts reply the same to texts shorter than `n`, and take at
least one character. -/
structure Nested.SameBelow (n : Nat) (first second : Nested) : Prop where
  expr : Alike n 1 first.expr second.expr
  negation : Alike n 1 first.negation second.negation
  signed : Alike n 1 first.signed second.signed
  query : Alike n 1 first.query second.query

variable {n : Nat}

theorem symbol_alike {expected : Char} (mark : isMark expected = true) :
    Alike n 1 (symbol expected) (symbol expected) :=
  (symbol_agree mark).alike

theorem keyword_alike {word : String} (isKeyword : isKeyword word = true) :
    Alike n 1 (keyword word) (keyword word) :=
  (keyword_agree isKeyword).alike

theorem keywordFor_alike {α : Type} {word : String} (value : α)
    (isKeyword : isKeyword word = true) :
    Alike n 1 (do keyword word; return value) (do keyword word; return value) :=
  (keyword_alike isKeyword).map fun _ => value

namespace Expression

theorem chain_alike {operand other : Lexer Expr} {op : Lexer BinaryOp}
    (operands : Alike n 1 operand other) (ops : Alike n 1 op op) :
    Alike n 1 (chain operand op) (chain other op) :=
  operands.bind fun first =>
    .repeating (fun left => ops.bind fun op => operands.map (.binary op left)) first

/-- The loop of a chain needs no clock. -/
def ChainEnds (operand : Lexer Expr) (op : Lexer BinaryOp) : Prop :=
  Clockless fun left => do
    let op ← op
    let right ← operand
    return Expr.binary op left right

theorem chainEnds {operand : Lexer Expr} {op : Lexer BinaryOp}
    (operands : ∀ n, Alike (n + 1) 1 operand operand) (ops : ∀ n, Alike (n + 1) 1 op op)
    (stops : Misses op []) : ChainEnds operand op :=
  clockless (fun left => .of_alike fun n =>
    (ops n).bind fun op => (operands n).map (Expr.binary op left)) fun _ => stops.bind _

/-! ## What stands for itself -/

section Primary

variable {first second : Nested} (nested : Nested.SameBelow n first second)

include nested

theorem bracketedQuery_alike :
    Alike (n + 1) 1 (bracketedQuery first) (bracketedQuery second) :=
  (symbol_alike (by decide)).behind fun _ => nested.query.bind fun query =>
    (symbol_alike (by decide)).map fun _ => query

theorem bracketedList_alike : Alike (n + 1) 1 (bracketedList first) (bracketedList second) :=
  (symbol_alike (by decide)).behind fun _ =>
    (nested.expr.separatedList1 (symbol_alike (by decide))).bind fun items =>
      (symbol_alike (by decide)).map fun _ => items

theorem bracketed_alike : Alike (n + 1) 1 (bracketed first) (bracketed second) := by
  apply Alike.orAfterFailure
  · exact (bracketedQuery_alike nested).map Expr.subquery
  · exact (symbol_alike (by decide)).behind fun _ => nested.expr.bind fun inner =>
      (symbol_alike (by decide)).map fun _ => Expr.nested inner

theorem branch_alike : Alike n 1 (branch first) (branch second) :=
  (keyword_alike (by decide)).bind fun _ => nested.expr.bind fun condition =>
    (keyword_alike (by decide)).bind fun _ => nested.expr.map (Branch.mk condition)

theorem caseOperand_alike : Alike n 0 (caseOperand first) (caseOperand second) := by
  have whenAhead : Alike n 0 (succeeds (keyword "WHEN")) (succeeds (keyword "WHEN")) :=
    (keyword_agree (by decide)).succeeds.alike
  apply whenAhead.bind
  rintro (_ | _)
  · simp only [Bool.false_eq_true, if_false]
    exact (nested.expr.map some).mono (Nat.zero_le 1)
  · simp only [if_true]
    exact .pure none

theorem caseExpression_alike :
    Alike (n + 1) 1 (caseExpression first) (caseExpression second) := by
  have elsePart : Alike n 1 (do keyword "ELSE"; first.expr) (do keyword "ELSE"; second.expr) :=
    (keyword_alike (by decide)).bind fun _ => nested.expr
  exact (keyword_alike (by decide)).behind fun _ => (caseOperand_alike nested).bind fun operand =>
    (branch_alike nested).many1.bind fun branches => elsePart.optional.bind fun otherwise =>
      (keyword_alike (by decide)).map fun _ => Expr.case operand branches otherwise

theorem existsCondition_alike :
    Alike (n + 1) 1 (existsCondition first) (existsCondition second) :=
  (keyword_alike (by decide)).bind fun _ => (bracketedQuery_alike nested).map Expr.existsIn

theorem call_alike : Alike (n + 1) 1 (call first) (call second) := by
  apply (token_agree (word_agree isFunctionName_of_sameLetters)).alike.behind
  intro name
  apply (symbol_alike (by decide)).bind
  intro _
  apply (symbol_alike (by decide)).ifPresent
  · exact fun _ => (symbol_alike (by decide)).map fun _ => Expr.call name [] false true
  · exact (keyword_alike (by decide)).optional.bind fun distinct =>
      (nested.expr.separatedList (symbol_alike (by decide))).bind fun args =>
        (symbol_alike (by decide)).map fun _ => Expr.call name args distinct.isSome false
  · exact Nat.zero_le 1

theorem primary_alike : Alike (n + 1) 1 (primary first) (primary second) := by
  apply (bracketed_alike nested).firstOf
  exact .cons parameter_agree.alike (.cons bracedLiteral_agree.alike
    (.cons typedLiteral_agree.alike (.cons (string_agree.alike.map _)
    (.cons (number_agree.alike.map _) (.cons (wordLiteral_agree _ (by decide)).alike
    (.cons (wordLiteral_agree _ (by decide)).alike (.cons (wordLiteral_agree _ (by decide)).alike
    (.cons (caseExpression_alike nested) (.cons (existsCondition_alike nested)
    (.cons (call_alike nested) (.cons (objectName_agree.alike.map _) .nil)))))))))))

end Primary

/-! ## Levels -/

section Levels

variable {first second : Nested} (nested : Nested.SameBelow n first second)

include nested

theorem signed_alike : Alike (n + 1) 1 (signed first) (signed second) := by
  apply (symbol_alike (by decide)).ifPresentWithin (Nat.le_refl _)
  · exact fun _ => nested.signed.map negated
  · apply (symbol_alike (by decide)).ifPresentWithin (Nat.le_refl _)
    · exact fun _ => nested.signed.map (Expr.unary .plus)
    · exact primary_alike nested
    · exact Nat.le_refl 1
  · exact Nat.le_refl 1

theorem multiplicative_alike :
    Alike (n + 1) 1 (multiplicative first) (multiplicative second) :=
  chain_alike (signed_alike nested) multiplicativeOperator_agree.alike

theorem additive_alike : Alike (n + 1) 1 (additive first) (additive second) :=
  chain_alike (multiplicative_alike nested) additiveOperator_agree.alike

theorem bitwise_alike : Alike (n + 1) 1 (bitwise first) (bitwise second) :=
  chain_alike (additive_alike nested) bitwiseOperator_agree.alike

theorem quantified_alike (left : Expr) :
    Alike (n + 1) 1 (quantified first left) (quantified second left) := by
  apply comparisonOperator_agree.alike.bind
  intro op
  apply Alike.bind ((keywordFor_alike true (by decide)).firstOf
    (.cons (keywordFor_alike false (by decide)) (.cons (keywordFor_alike false (by decide)) .nil)))
  intro all
  exact (bracketedQuery_alike nested).map fun query =>
    if all then Expr.compareAll op left query else Expr.compareAny op left query

theorem comparison_alike (left : Expr) :
    Alike (n + 1) 1 (comparison first left) (comparison second left) :=
  comparisonOperator_agree.alike.bind fun op => (bitwise_alike nested).map (Expr.binary op left)

theorem membership_alike (negated : Bool) (left : Expr) :
    Alike (n + 1) 1 (membership first negated left) (membership second negated left) := by
  apply (keyword_alike (by decide)).bind
  intro _
  apply Alike.orAfterFailure
  · exact (bracketedQuery_alike nested).map (Expr.inQuery negated left)
  · exact (bracketedList_alike nested).map (Expr.inList negated left)

theorem afterNot_alike (left : Expr) (negated : Bool) :
    Alike (n + 1) 1 (afterNot first left negated) (afterNot second left negated) := by
  apply (keyword_alike (by decide)).ifPresent
  · exact fun _ => (bitwise_alike nested).map (Expr.like negated left)
  · apply (keyword_alike (by decide)).ifPresent
    · exact fun _ => (bitwise_alike nested).bind fun low =>
        (keyword_alike (by decide)).bind fun _ =>
          (bitwise_alike nested).map (Expr.between negated left low)
    · exact membership_alike nested negated left
    · exact Nat.le_refl 1
  · exact Nat.le_refl 1

theorem negatable_alike (left : Expr) :
    Alike (n + 1) 1 (negatable first left) (negatable second left) :=
  (keyword_alike (by decide)).optional.andThen fun negated =>
    afterNot_alike nested left negated.isSome

theorem predicateSuffix_alike (left : Expr) :
    Alike (n + 1) 1 (predicateSuffix first left) (predicateSuffix second left) :=
  (quantified_alike nested left).firstOf (.cons (comparison_alike nested left)
    (.cons (nullTest_agree rfl).alike (.cons (negatable_alike nested left) .nil)))

theorem predicate_alike : Alike (n + 1) 1 (predicate first) (predicate second) :=
  (bitwise_alike nested).bind fun left => .repeating (predicateSuffix_alike nested) left

theorem negation_alike : Alike (n + 1) 1 (negation first) (negation second) := by
  apply Alike.orElse _ (predicate_alike nested)
  exact (keyword_alike (by decide)).behind fun _ => nested.negation.map (Expr.unary .not)

theorem conjunction_alike : Alike (n + 1) 1 (conjunction first) (conjunction second) :=
  chain_alike (negation_alike nested) (keywordFor_alike BinaryOp.and (by decide))

theorem disjunction_alike : Alike (n + 1) 1 (disjunction first) (disjunction second) :=
  chain_alike (conjunction_alike nested) (keywordFor_alike BinaryOp.or (by decide))

end Levels

end Expression

namespace Clause

/-! ## Clauses -/

section Errors

variable {α : Type} {least : Nat} {p q : Lexer α}

theorem opening_alike (alike : Alike n least p q) : Alike n least (opening p) (opening q) :=
  alike.mapErrors (fun within => .miss (within_single within _))
    fun within => .halt (within_single within _)

theorem committed_alike (context : Context) (alike : Alike n least p q) :
    Alike n least (committed context p) (committed context q) :=
  alike.mapErrors (fun within => .halt (within_single within _))
    fun within => .halt (within_single within _)

theorem clause_alike (context : Context) {keywords : Lexer Unit}
    (opens : Alike n 1 keywords keywords) (alike : Alike n least p q) :
    Alike n 1 (clause context keywords p) (clause context keywords q) :=
  (opening_alike opens).bind fun _ => committed_alike context alike

theorem asPart_alike {p q : ClauseReader α} (alike : Alike n least p q) :
    Alike n least (asPart p) (asPart q) :=
  alike.mapErrors (fun within => .miss (within_place within))
    fun within => .halt (within_place within)

end Errors

section Parts

variable {first second : Nested} (nested : Nested.SameBelow n first second)

include nested

theorem selectItem_alike : Alike (n + 1) 1 (selectItem first) (selectItem second) := by
  apply Alike.firstOf
  · exact (symbol_alike (by decide)).map fun _ => SelectItem.wildcard
  refine .cons ?qualified (.cons ?expr .nil)
  case qualified =>
    exact objectName_agree.alike.bind fun name => (symbol_alike (by decide)).bind fun _ =>
      (symbol_alike (by decide)).map fun _ => SelectItem.qualifiedWildcard name
  case expr =>
    exact (Expression.disjunction_alike nested).bind fun expr =>
      asName_agree.alike.optional.map (SelectItem.expr expr)

theorem selectClause_alike : Alike (n + 1) 1 (selectClause first) (selectClause second) := by
  apply (opening_alike (keyword_alike (by decide))).bind
  intro _
  apply (opening_alike distinctness_agree.alike).bind
  intro distinct
  exact Alike.map (Prod.mk distinct) (committed_alike .selectClause
    ((selectItem_alike nested).separatedList1 (symbol_alike (by decide))))

theorem source_alike : Alike (n + 1) 1 (source first) (source second) := by
  apply Alike.orElse
  · exact (Expression.bracketedQuery_alike nested).bind fun query =>
      asName_agree.alike.optional.map (Source.derived query)
  · exact objectName_agree.alike.bind fun name =>
      asName_agree.alike.optional.map (Source.table name)

theorem joinCondition_alike : Alike (n + 1) 1 (joinCondition first) (joinCondition second) :=
  (keyword_alike (by decide)).bind fun _ => Expression.disjunction_alike nested

theorem join_alike : Alike (n + 1) 1 (join first) (join second) := by
  have cross : Alike (n + 1) 1 (do keyword "CROSS"; keyword "JOIN")
      (do keyword "CROSS"; keyword "JOIN") :=
    (keyword_alike (by decide)).bind fun _ => keyword_alike (by decide)
  apply cross.ifPresent
  · exact fun _ => (source_alike nested).map fun source => Join.mk source .cross
  · exact joinKind_agree.alike.bind fun kind => (source_alike nested).bind fun source =>
      (joinCondition_alike nested).optional.map fun condition =>
        Join.mk source (.on kind condition)
  · exact Nat.le_refl 1

theorem sourceWithJoins_alike :
    Alike (n + 1) 1 (sourceWithJoins first) (sourceWithJoins second) :=
  (source_alike nested).bind fun source =>
    (join_alike nested).many.map (SourceWithJoins.mk source)

theorem fromClause_alike : Alike (n + 1) 1 (fromClause first) (fromClause second) :=
  clause_alike .fromClause (keyword_alike (by decide))
    ((sourceWithJoins_alike nested).separatedList1 (symbol_alike (by decide)))

theorem whereClause_alike : Alike (n + 1) 1 (whereClause first) (whereClause second) :=
  clause_alike .whereClause (keyword_alike (by decide)) (Expression.disjunction_alike nested)

theorem groupByClause_alike : Alike (n + 1) 1 (groupByClause first) (groupByClause second) :=
  clause_alike .groupByClause
    ((keyword_alike (by decide)).bind fun _ => keyword_alike (by decide))
    ((Expression.disjunction_alike nested).separatedList1 (symbol_alike (by decide)))

theorem havingClause_alike : Alike (n + 1) 1 (havingClause first) (havingClause second) :=
  clause_alike .havingClause (keyword_alike (by decide)) (Expression.disjunction_alike nested)

theorem orderItem_alike : Alike (n + 1) 1 (orderItem first) (orderItem second) := by
  apply (Expression.disjunction_alike nested).bind
  intro expr
  apply Alike.map fun (ascending : Option Bool) => OrderItem.mk expr (ascending.getD true)
  exact Alike.optional ((keywordFor_alike true (by decide)).firstOf
    (.cons (keywordFor_alike false (by decide)) .nil))

theorem orderByClause_alike : Alike (n + 1) 1 (orderByClause first) (orderByClause second) :=
  clause_alike .orderByClause
    ((keyword_alike (by decide)).bind fun _ => keyword_alike (by decide))
    ((orderItem_alike nested).separatedList1 (symbol_alike (by decide)))

theorem query_alike : Alike (n + 1) 1 (query first) (query second) :=
  (selectClause_alike nested).bind fun _ => (fromClause_alike nested).optional.bind fun _ =>
    (whereClause_alike nested).optional.bind fun _ =>
      (groupByClause_alike nested).optional.bind fun _ =>
        (havingClause_alike nested).optional.bind fun _ =>
          (orderByClause_alike nested).optional.bind fun _ =>
            page_agree.alike.bind fun _ => .pure _

end Parts

end Clause

/-! ## The equations of the grammar -/

attribute [ext] Nested

namespace Nested

/-- One turn of the grammar: the readers whose nested parts are read by these. -/
def unfolded (readers : Nested) : Nested where
  expr := Expression.disjunction readers
  negation := Expression.negation readers
  signed := Expression.signed readers
  query := Clause.asPart (Clause.query readers)

/-- The readers for nested parts, each with its own text as the clock. -/
def closed : Nested where
  expr s := (within s).unfolded.expr s
  negation s := (within s).unfolded.negation s
  signed s := (within s).unfolded.signed s
  query s := (within s).unfolded.query s

theorem SameBelow.zero (first second : Nested) : SameBelow 0 first second := by
  have vacuous : ∀ {α : Type} (p q : Lexer α), Alike 0 1 p q :=
    fun p q => ⟨fun short => absurd short (Nat.not_lt_zero _),
      fun short => absurd short (Nat.not_lt_zero _)⟩
  exact ⟨vacuous _ _, vacuous _ _, vacuous _ _, vacuous _ _⟩

/-- One turn of the grammar takes a character. -/
theorem SameBelow.unfolded {first second : Nested} (nested : SameBelow n first second) :
    SameBelow (n + 1) first.unfolded second.unfolded :=
  ⟨Expression.disjunction_alike nested, Expression.negation_alike nested,
    Expression.signed_alike nested, Clause.asPart_alike (Clause.query_alike nested)⟩

theorem within_cons (c : Char) (clock : List Char) :
    within (c :: clock) = (within clock).unfolded :=
  rfl

/-- Clocks that are longer than the text make no difference. -/
theorem sameBelow_within {clock other : List Char} (room : n ≤ clock.length)
    (otherRoom : n ≤ other.length) : SameBelow n (within clock) (within other) := by
  induction n generalizing clock other with
  | zero => exact .zero _ _
  | succ n ih =>
      obtain ⟨c, clock, rfl⟩ := List.exists_cons_of_length_pos (Nat.zero_lt_of_lt room)
      obtain ⟨d, other, rfl⟩ := List.exists_cons_of_length_pos (Nat.zero_lt_of_lt otherRoom)
      rw [within_cons, within_cons]
      exact (ih (Nat.le_of_succ_le_succ room) (Nat.le_of_succ_le_succ otherRoom)).unfolded

/-- A clock that is longer than a text gives the same reply as the text itself. -/
theorem sameBelow_closed (clock : List Char) : SameBelow clock.length closed (within clock) := by
  cases clock with
  | nil => exact .zero _ _
  | cons c clock =>
      have own : ∀ s : List Char, s.length < (c :: clock).length →
          SameBelow (s.length + 1) (within s).unfolded (within (c :: clock)) := fun s short =>
        (sameBelow_within (Nat.le_refl _) (Nat.le_of_lt_succ short)).unfolded
      exact ⟨.diagonal (fun s => (within s).unfolded.expr) fun s short => (own s short).expr,
        .diagonal (fun s => (within s).unfolded.negation) fun s short => (own s short).negation,
        .diagonal (fun s => (within s).unfolded.signed) fun s short => (own s short).signed,
        .diagonal (fun s => (within s).unfolded.query) fun s short => (own s short).query⟩

/-- The readers with clocks solve the equations of the grammar, which have none. -/
theorem unfolded_closed : closed.unfolded = closed := by
  have own : ∀ s : List Char, SameBelow (s.length + 1) closed.unfolded (within s).unfolded :=
    fun s => (sameBelow_closed s).unfolded
  apply Nested.ext <;> funext s
  · exact (own s).expr.same (Nat.lt_succ_self _)
  · exact (own s).negation.same (Nat.lt_succ_self _)
  · exact (own s).signed.same (Nat.lt_succ_self _)
  · exact (own s).query.same (Nat.lt_succ_self _)

/-- Replies to texts of one length are fixed by the replies to shorter texts, so two
solutions of the equations are the same. -/
theorem sameBelow_of_unfolded {first second : Nested} (firstSolves : first.unfolded = first)
    (secondSolves : second.unfolded = second) (n : Nat) : SameBelow n first second := by
  induction n with
  | zero => exact .zero _ _
  | succ n ih =>
      -- Both are one turn of the grammar away from readers that are the same below `n`.
      rw [← firstSolves, ← secondSolves]
      exact ih.unfolded

theorem unfolded_eq_iff {readers : Nested} : readers.unfolded = readers ↔ readers = closed := by
  constructor
  · intro solves
    have same := sameBelow_of_unfolded solves unfolded_closed
    apply Nested.ext <;> funext s
    · exact (same (s.length + 1)).expr.same (Nat.lt_succ_self _)
    · exact (same (s.length + 1)).negation.same (Nat.lt_succ_self _)
    · exact (same (s.length + 1)).signed.same (Nat.lt_succ_self _)
    · exact (same (s.length + 1)).query.same (Nat.lt_succ_self _)
  · rintro rfl
    exact unfolded_closed

end Nested

theorem readExpr_eq : readExpr = Expression.disjunction Nested.closed :=
  (congrArg Nested.expr Nested.unfolded_closed).symm

/-- Queries are read by the solution of the equations. -/
theorem readQuery_eq : readQuery = Clause.query Nested.closed := by
  funext s
  exact ((Clause.query_alike (Nested.sameBelow_closed s)).same (Nat.lt_succ_self _)).symm

/-! ## Moving on and coming to an end -/

namespace Nested

/-- The readers of the grammar take at least one character, but for the end of a query,
which may be empty. -/
structure MovesOn (readers : Nested) : Prop where
  disjunction : Advances 1 (Expression.disjunction readers)
  conjunction : Advances 1 (Expression.conjunction readers)
  negation : Advances 1 (Expression.negation readers)
  predicate : Advances 1 (Expression.predicate readers)
  bitwise : Advances 1 (Expression.bitwise readers)
  additive : Advances 1 (Expression.additive readers)
  multiplicative : Advances 1 (Expression.multiplicative readers)
  signed : Advances 1 (Expression.signed readers)
  primary : Advances 1 (Expression.primary readers)
  subquery : Advances 1 (Expression.bracketedQuery readers)
  selectItem : Advances 1 (Clause.selectItem readers)
  source : Advances 1 (Clause.source readers)
  join : Advances 1 (Clause.join readers)
  selectClause : Advances 1 (Clause.selectClause readers)
  fromClause : Advances 1 (Clause.fromClause readers)
  whereClause : Advances 1 (Clause.whereClause readers)
  groupByClause : Advances 1 (Clause.groupByClause readers)
  havingClause : Advances 1 (Clause.havingClause readers)
  orderByClause : Advances 1 (Clause.orderByClause readers)
  limitClause : Advances 1 Clause.limitClause
  offsetClause : Advances 1 Clause.offsetClause
  ending : Advances 0 (do
    let orderBy ← Reader.optional (Clause.orderByClause readers)
    return (orderBy, ← Clause.page))
  query : Advances 1 (Clause.query readers)

theorem manyEnds_afterComma {α : Type} {p : Lexer α} (alike : ∀ n, Alike (n + 1) 1 p p) :
    ManyEnds (do symbol ','; p) :=
  manyEnds (fun n => (symbol_alike (by decide)).bind fun _ => alike n) ⟨_, rfl⟩

/-- No loop of the grammar needs its clock: those of the operators and of the
predicates, and those that gather the items of a list. -/
structure LoopsEnd (readers : Nested) : Prop where
  disjunction : Expression.ChainEnds (Expression.conjunction readers) (do keyword "OR"; return .or)
  conjunction : Expression.ChainEnds (Expression.negation readers) (do keyword "AND"; return .and)
  predicate : Clockless (Expression.predicateSuffix readers)
  bitwise : Expression.ChainEnds (Expression.additive readers) Expression.bitwiseOperator
  additive : Expression.ChainEnds (Expression.multiplicative readers) Expression.additiveOperator
  multiplicative :
    Expression.ChainEnds (Expression.signed readers) Expression.multiplicativeOperator
  branches : ManyEnds (Expression.branch readers)
  joins : ManyEnds (Clause.join readers)
  expressions : ManyEnds (do symbol ','; readers.expr)
  selectItems : ManyEnds (do symbol ','; Clause.selectItem readers)
  sources : ManyEnds (do symbol ','; Clause.sourceWithJoins readers)
  groups : ManyEnds (do symbol ','; Clause.expression readers)
  orderItems : ManyEnds (do symbol ','; Clause.orderItem readers)
  identifiers : ManyEnds (do let _ ← char '.'; identifier)

section Consequences

variable {readers : Nested} (same : ∀ n, SameBelow n readers readers)

include same

open Expression Clause in
theorem movesOn : MovesOn readers where
  disjunction := .of_alike fun n => disjunction_alike (same n)
  conjunction := .of_alike fun n => conjunction_alike (same n)
  negation := .of_alike fun n => negation_alike (same n)
  predicate := .of_alike fun n => predicate_alike (same n)
  bitwise := .of_alike fun n => bitwise_alike (same n)
  additive := .of_alike fun n => additive_alike (same n)
  multiplicative := .of_alike fun n => multiplicative_alike (same n)
  signed := .of_alike fun n => signed_alike (same n)
  primary := .of_alike fun n => primary_alike (same n)
  subquery := .of_alike fun n => bracketedQuery_alike (same n)
  selectItem := .of_alike fun n => selectItem_alike (same n)
  source := .of_alike fun n => source_alike (same n)
  join := .of_alike fun n => join_alike (same n)
  selectClause := .of_alike fun n => selectClause_alike (same n)
  fromClause := .of_alike fun n => fromClause_alike (same n)
  whereClause := .of_alike fun n => whereClause_alike (same n)
  groupByClause := .of_alike fun n => groupByClause_alike (same n)
  havingClause := .of_alike fun n => havingClause_alike (same n)
  orderByClause := .of_alike fun n => orderByClause_alike (same n)
  limitClause := .of_alike fun _ => limitClause_agree.alike
  offsetClause := .of_alike fun _ => offsetClause_agree.alike
  ending := .of_alike fun n => (orderByClause_alike (same n)).optional.bind
    fun orderBy => page_agree.alike.map (Prod.mk orderBy)
  query := .of_alike fun n => query_alike (same n)

open Expression Clause in
theorem loopsEnd : LoopsEnd readers where
  disjunction := chainEnds (fun n => conjunction_alike (same n))
    (fun _ => keywordFor_alike BinaryOp.or (by decide)) ⟨_, rfl⟩
  conjunction := chainEnds (fun n => negation_alike (same n))
    (fun _ => keywordFor_alike BinaryOp.and (by decide)) ⟨_, rfl⟩
  predicate := clockless (fun left => .of_alike fun n => predicateSuffix_alike (same n) left)
    fun _ => ⟨_, rfl⟩
  bitwise := chainEnds (fun n => additive_alike (same n))
    (fun _ => bitwiseOperator_agree.alike) ⟨_, rfl⟩
  additive := chainEnds (fun n => multiplicative_alike (same n))
    (fun _ => additiveOperator_agree.alike) ⟨_, rfl⟩
  multiplicative := chainEnds (fun n => signed_alike (same n))
    (fun _ => multiplicativeOperator_agree.alike) ⟨_, rfl⟩
  branches := manyEnds (fun n => branch_alike (same (n + 1))) ⟨_, rfl⟩
  joins := manyEnds (fun n => join_alike (same n)) ⟨_, rfl⟩
  expressions := manyEnds_afterComma fun n => (same (n + 1)).expr
  selectItems := manyEnds_afterComma fun n => selectItem_alike (same n)
  sources := manyEnds_afterComma fun n => sourceWithJoins_alike (same n)
  groups := manyEnds_afterComma fun n => disjunction_alike (same n)
  orderItems := manyEnds_afterComma fun n => orderItem_alike (same n)
  identifiers := manyEnds (fun _ => (char_agree (by decide)).alike.bind fun _ =>
    identifier_agree.alike) ⟨_, rfl⟩

end Consequences

end Nested

/-- The reading of a text comes to an end, and every reader of the grammar moves on.  The
equations of the grammar have one solution, which reads the expressions and the
queries, and its loops end by themselves.  What its readers leave is a shorter end of
their text.  The reading ends with a query, with an error whose places are ends of the
text, or where the text is torn: at an end that starts like LIKE with the kelvin sign
for its K. -/
theorem parse_comes_to_end (text : String) :
    (∀ readers : Nested, readers.unfolded = readers ↔ readers = Nested.closed) ∧
      readExpr = Expression.disjunction Nested.closed ∧
      readQuery = Clause.query Nested.closed ∧
      Nested.LoopsEnd Nested.closed ∧ Nested.MovesOn Nested.closed ∧
      ((∃ query, parse text = .ok query) ∨
        (∃ error, parse text = .error (.unreadable error) ∧
          ∀ fault ∈ error.faults, fault.place <:+ text.toList) ∨
        ∃ place, parse text = .error (.torn place) ∧ TornAt text.toList place) := by
  have same := Nested.sameBelow_of_unfolded Nested.unfolded_closed Nested.unfolded_closed
  refine ⟨fun _ => Nested.unfolded_eq_iff, readExpr_eq, readQuery_eq, Nested.loopsEnd same,
    Nested.movesOn same, ?_⟩
  have moves : Moves 1 text.toList (readStatement text.toList) :=
    readStatement_agree.alike.moves (Nat.lt_succ_self _)
  have places : ∀ {error : ReadError}, Within error text.toList →
      ∀ fault ∈ error.faults, fault.place <:+ text.toList :=
    fun within fault member => within _ (List.mem_map_of_mem member)
  unfold parse
  generalize readStatement text.toList = reply at moves
  cases moves with
  | @ok query _ _ => exact .inl ⟨query, rfl⟩
  | @miss error within => exact .inr (.inl ⟨error, rfl, places within⟩)
  | @halt error within => exact .inr (.inl ⟨error, rfl, places within⟩)
  | @torn place torn => exact .inr (.inr ⟨place, rfl, torn⟩)

/-- A statement with the kelvin sign in its LIKE. -/
def kelvinReport : String :=
  "SELECT x FROM foo WHERE x LI\u212aE 'a'"

/-- The place where a text is torn. -/
def tornPlace? : Except ReadFailure Query → Option Position
  | .error (.torn place) => some place
  | .error (.unreadable _) | .ok _ => none

theorem eq_torn_of_tornPlace? {result : Except ReadFailure Query} {place : Position}
    (found : tornPlace? result = some place) : result = .error (.torn place) := by
  unfold tornPlace? at found
  split at found
  · rw [Option.some.inj found]
  all_goals contradiction

/-- It gives neither a query nor an error with places. -/
theorem parse_kelvinReport :
    parse kelvinReport = .error (.torn "LI\u212aE 'a'".toList) ∧
      (∀ query, parse kelvinReport ≠ .ok query) ∧
      ∀ error, parse kelvinReport ≠ .error (.unreadable error) := by
  have torn : parse kelvinReport = .error (.torn "LI\u212aE 'a'".toList) :=
    eq_torn_of_tornPlace? (by decide +kernel)
  rw [torn]
  exact ⟨rfl, fun _ => nofun, fun _ => nofun⟩

end TripleTables.Sql
