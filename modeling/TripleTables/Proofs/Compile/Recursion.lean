import TripleTables.Proofs.Run

/-!
# Compilation as a recursion

The program of an expression leaves on the stack what a recursion over the
expression gives.  The recursion makes the checks that belong to a node, then
compiles the operands from left to right, and combines the results last; the
builder is threaded through it in the same order in which the machine meets
the columns, so both agree on the builder too, also where they fail.

`Visits` is the part of the recursion that succeeds, as a relation with one
rule for each node.  It puts a node and the list of its operands side by side,
so facts about results are proved rule by rule.
-/

namespace TripleTables

/-- The expression is nothing but a variable or a constant. -/
def Graph.Expr.isLeaf : Graph.Expr → Bool
  | .variable _ | .constant _ => true
  | _ => false

end TripleTables

namespace TripleTables.Compile

open TripleTables.Graph

variable {mode : Mode}

/-- The expression after a unary operator. -/
def applyUnary : Sql.UnaryOp → Expr → Expr
  | .not, operand => .not operand
  | .minus, operand => .negate operand
  | .plus, operand => operand

/-- The condition of a LIKE, whose pattern has to be a constant. -/
def likeCondition (negated : Bool) (subject pattern : Expr) : Except CompileError Expr :=
  match likeFilter? subject pattern with
  | some condition => .ok (negatedIf negated condition)
  | none => .error (.unsupported .likePattern none)

mutual

/-- The expression that a SQL expression is compiled to. -/
def visit (mode : Mode) : Sql.Expr → Compile Expr
  | .column name => do
      let v ← columnVariable mode name
      return .variable v
  | .literal value =>
      match literal? value with
      | some constant => pure (.constant constant)
      | none => throw (mode.refusal .nullLiteral)
  | .nested inner => visit mode inner
  | .binary op left right =>
      match binaryOp op with
      | .ok op => do
          let left ← visit mode left
          let right ← visit mode right
          return .binary op left right
      | .error construct => throw (mode.refusal construct)
  | .unary op operand => do
      let operand ← visit mode operand
      return applyUnary op operand
  | .like negated subject pattern => do
      let subject ← visit mode subject
      let pattern ← visit mode pattern
      liftExcept (likeCondition negated subject pattern)
  | .between negated subject low high => do
      let subject ← visit mode subject
      let low ← visit mode low
      let high ← visit mode high
      return negatedIf negated (rangeFilter subject low high)
  | .inList negated subject items => do
      let subject ← visit mode subject
      let items ← visitAll mode items
      return .inList subject items negated
  | .isNull negated subject => do
      let subject ← visit mode subject
      liftExcept (nullFilter mode negated subject)
  | .call name args distinct star =>
      match resolveCall mode name args.length distinct star with
      | .ok entry => do
          let args ← visitAll mode args
          liftExcept (applyFunction mode entry distinct args)
      | .error error => throw error
  | .parameter => throw (mode.refusal .parameter)
  | .inQuery _ _ _ => throw (mode.refusal .inSubquery)
  | .existsIn _ => throw (mode.refusal .existsCondition)
  | .subquery _ => throw (mode.refusal .subquery)
  | .compareAny _ _ _ => throw (mode.refusal .compareAny)
  | .compareAll _ _ _ => throw (mode.refusal .compareAll)
  | .case _ _ _ => throw (mode.refusal .caseExpression)

/-- The expressions that some SQL expressions are compiled to, in order. -/
def visitAll (mode : Mode) : List Sql.Expr → Compile (List Expr)
  | [] => pure []
  | e :: rest => do
      let first ← visit mode e
      let others ← visitAll mode rest
      return first :: others

end

/-! ## Single instructions -/

theorem run_cons (instruction : Instruction) (rest : Program) (stack : Stack) :
    run mode (instruction :: rest) stack =
      step mode instruction stack >>= fun stack => run mode rest stack :=
  rfl

theorem popMany_append (items : List Expr) (stack : Stack) :
    popMany items.length (items.reverse ++ stack) = .ok (items, stack) := by
  simp [popMany]

theorem run_unaryInstruction (op : Sql.UnaryOp) (operand : Expr) (rest : Program)
    (stack : Stack) :
    run mode (unaryInstruction op ++ rest) (operand :: stack) =
      run mode rest (applyUnary op operand :: stack) := by
  cases op <;> rfl

theorem run_like (negated : Bool) (subject pattern : Expr) (rest : Program) (stack : Stack) :
    run mode (.like negated :: rest) (pattern :: subject :: stack) =
      liftExcept (likeCondition negated subject pattern) >>= fun condition =>
        run mode rest (condition :: stack) := by
  rw [run_cons]
  simp only [step, combine, likeCondition]
  cases likeFilter? subject pattern with
  | none => rfl
  | some condition => rfl

theorem run_isNull (negated : Bool) (subject : Expr) (rest : Program) (stack : Stack) :
    run mode (.isNull negated :: rest) (subject :: stack) =
      liftExcept (nullFilter mode negated subject) >>= fun condition =>
        run mode rest (condition :: stack) := by
  rw [run_cons]
  simp only [step, combine]
  cases nullFilter mode negated subject with
  | error error => rfl
  | ok condition => rfl

theorem run_inList (negated : Bool) (subject : Expr) (items : List Expr) (rest : Program)
    (stack : Stack) :
    run mode (.inList negated items.length :: rest) (items.reverse ++ subject :: stack) =
      run mode rest (.inList subject items negated :: stack) := by
  rw [run_cons]
  simp only [step, combine, popMany_append]
  rfl

theorem run_call (entry : FunctionEntry) (distinct : Bool) (args : List Expr) (rest : Program)
    (stack : Stack) :
    run mode (.call entry args.length distinct :: rest) (args.reverse ++ stack) =
      liftExcept (applyFunction mode entry distinct args) >>= fun result =>
        run mode rest (result :: stack) := by
  rw [run_cons]
  simp only [step, combine, popMany_append]
  cases applied : applyFunction mode entry distinct args with
  | error error => simp [applied, bind, Except.bind]; rfl
  | ok result => simp [applied, bind, Except.bind]; rfl

/-! ## Programs -/

/-- One result for every expression. -/
theorem length_of_visitAll {es : List Sql.Expr} {results : List Expr} {before after : Builder}
    (visited : visitAll mode es before = .ok results after) : results.length = es.length := by
  induction es generalizing results before with
  | nil =>
      cases visited
      rfl
  | cons e rest ih =>
      rw [visitAll, Run.bind_eq_ok_iff] at visited
      obtain ⟨first, middle, _, visited⟩ := visited
      obtain ⟨others, last, restVisited, visited⟩ := Run.bind_eq_ok_iff.mp visited
      cases visited
      simp [ih restVisited]

/-- What follows the compilation of some expressions may count on one result
for each of them. -/
theorem visitAll_bind_congr {α : Type} {es : List Sql.Expr} {first second : List Expr → Compile α}
    (agree : ∀ results, results.length = es.length → first results = second results) :
    visitAll mode es >>= first = visitAll mode es >>= second := by
  funext before
  simp only [bind, EStateM.bind]
  cases visited : visitAll mode es before with
  | error error after => rfl
  | ok results after => exact congrFun (agree results (length_of_visitAll visited)) after

mutual

/-- The program of an expression pushes what the recursion gives and goes on
with the instructions after it. -/
theorem run_program (e : Sql.Expr) (rest : Program) (stack : Stack) :
    run mode (program mode e ++ rest) stack =
      visit mode e >>= fun result => run mode rest (result :: stack) := by
  cases e with
  | column name =>
      rw [program, visit, List.singleton_append, run_cons]
      simp only [step, bind_assoc, pure_bind]
  | literal value =>
      rw [program, visit]
      cases literal? value with
      | none => rfl
      | some constant => rfl
  | nested inner =>
      rw [program, visit]
      exact run_program inner rest stack
  | binary op left right =>
      rw [program, visit]
      cases binaryOp op with
      | error construct => rfl
      | ok op =>
          simp only [List.append_assoc, run_program left, run_program right, bind_assoc,
            pure_bind]
          rfl
  | unary op operand =>
      simp only [program, visit, List.append_assoc, run_program operand, run_unaryInstruction,
        bind_assoc, pure_bind]
  | like negated subject pattern =>
      simp only [program, visit, List.append_assoc, run_program subject, run_program pattern,
        List.singleton_append, run_like, bind_assoc]
  | between negated subject low high =>
      simp only [program, visit, List.append_assoc, run_program subject, run_program low,
        run_program high, bind_assoc, pure_bind]
      rfl
  | inList negated subject items =>
      simp only [program, visit, List.append_assoc, run_program subject, run_programs items,
        List.singleton_append, bind_assoc, pure_bind]
      congr 1
      funext subject
      apply visitAll_bind_congr
      intro results lengths
      rw [← lengths, run_inList]
  | isNull negated subject =>
      simp only [program, visit, List.append_assoc, run_program subject, List.singleton_append,
        run_isNull, bind_assoc]
  | call name args distinct star =>
      rw [program, visit]
      cases resolveCall mode name args.length distinct star with
      | error error => rfl
      | ok entry =>
          simp only [List.append_assoc, run_programs args, List.singleton_append, bind_assoc]
          apply visitAll_bind_congr
          intro results lengths
          rw [← lengths, run_call]
  | parameter => rfl
  | inQuery negated subject query => rfl
  | existsIn query => rfl
  | subquery query => rfl
  | compareAny op left query => rfl
  | compareAll op left query => rfl
  | case operand branches otherwise => rfl

/-- The programs of some expressions push what the recursion gives for them. -/
theorem run_programs (es : List Sql.Expr) (rest : Program) (stack : Stack) :
    run mode (programs mode es ++ rest) stack =
      visitAll mode es >>= fun results => run mode rest (results.reverse ++ stack) := by
  cases es with
  | nil =>
      simp only [programs, visitAll, pure_bind]
      rfl
  | cons e others =>
      simp only [programs, visitAll, List.append_assoc, run_program e, run_programs others,
        List.reverse_cons, List.singleton_append, bind_assoc, pure_bind]

end

/-- Compiling an expression by its program is the recursion over it. -/
theorem expression_eq_visit (e : Sql.Expr) : expression mode e = visit mode e := by
  have ran := @run_program mode e [] []
  rw [List.append_nil] at ran
  simp only [expression, ran, bind_assoc]
  -- With nothing left to run, the machine holds the one result.
  show (visit mode e >>= fun result => pure result) = visit mode e
  exact bind_pure _

/-! ## Expressions that compile -/

/-- A call that is resolved is found in the table, may stand where it stands, and
has a number of arguments that the function accepts, if it has no star. -/
theorem resolveCall_eq_ok {name : String} {count : Nat} {distinct star : Bool}
    {entry : FunctionEntry} (resolved : resolveCall mode name count distinct star = .ok entry) :
    mode.functions.get? name = some entry ∧
      checkTarget mode name distinct star entry.target = .ok () ∧
      (star = false → entry.accepts count = true) := by
  simp only [resolveCall] at resolved
  split at resolved
  · cases resolved
  · split at resolved
    · cases resolved
    · rename_i found
      obtain ⟨_, checked, resolved⟩ := Run.bind_eq_ok_iff_of_except.mp resolved
      split at resolved
      · cases resolved
      · rename_i accepted
        cases resolved
        exact ⟨found, checked, fun noStar => by simpa [noStar] using accepted⟩

/-- A call that is put together applies a function to the arguments that are handed on,
or an aggregate to the first of them, in which there is no aggregate. -/
theorem applyFunction_eq_ok {entry : FunctionEntry} {distinct : Bool} {args : List Expr}
    {result : Expr} (applied : applyFunction mode entry distinct args = .ok result) :
    (∃ function, entry.target = .scalar function ∧
      result = .call function (entry.handOn args)) ∨
      ∃ function, entry.target = .aggregate function ∧
        result = .aggregate function distinct (entry.handOn args).head? ∧
        (entry.handOn args).head?.any Expr.containsAggregate = false := by
  unfold applyFunction at applied
  cases target : entry.target with
  | scalar function =>
      simp only [target] at applied
      cases applied
      exact .inl ⟨function, rfl, rfl⟩
  | aggregate function =>
      simp only [target] at applied
      split at applied
      · cases applied
      · rename_i plain
        cases applied
        exact .inr ⟨function, rfl, rfl, eq_false_of_ne_true plain⟩

/-! ## Results that are no leaves -/

theorem not_isLeaf_negatedIf (negated : Bool) {e : Expr} (compound : e.isLeaf = false) :
    (negatedIf negated e).isLeaf = false := by
  cases negated with
  | true => rfl
  | false => exact compound

theorem not_isLeaf_of_likeCondition {negated : Bool} {subject pattern result : Expr}
    (matched : likeCondition negated subject pattern = .ok result) : result.isLeaf = false := by
  unfold likeCondition likeFilter? at matched
  split at matched
  · rename_i condition found
    split at found
    · cases found
      cases matched
      apply not_isLeaf_negatedIf
      cases LikePattern.ofText _ with
      | regex pattern => rfl
      | exact wanted => rfl
    · cases found
  · cases matched

theorem not_isLeaf_of_nullFilter {negated : Bool} {subject result : Expr}
    (tested : nullFilter mode negated subject = .ok result) : result.isLeaf = false := by
  cases subject with
  | «variable» v =>
      cases tested
      exact not_isLeaf_negatedIf _ rfl
  | _ => cases tested

theorem not_isLeaf_of_applyFunction {entry : FunctionEntry} {distinct : Bool} {args : List Expr}
    {result : Expr} (applied : applyFunction mode entry distinct args = .ok result) :
    result.isLeaf = false := by
  rcases applyFunction_eq_ok applied with ⟨function, _, rfl⟩ | ⟨function, _, rfl, _⟩
  · rfl
  · rfl

/-- Some expressions are compiled to some results, in order, and lead from one
builder to another. -/
inductive Visits (mode : Mode) : Builder → List Sql.Expr → List Expr → Builder → Prop
  | nil (builder : Builder) : Visits mode builder [] [] builder
  | cons {before middle after : Builder} {e : Sql.Expr} {rest : List Sql.Expr} {result : Expr}
      {results : List Expr} (first : Visits mode before [e] [result] middle)
      (others : Visits mode middle rest results after) :
      Visits mode before (e :: rest) (result :: results) after
  | column {before after : Builder} {name : Sql.ObjectName} {v : Variable}
      (given : columnVariable mode name before = .ok v after) :
      Visits mode before [.column name] [.variable v] after
  | literal {builder : Builder} {value : Sql.Literal} {constant : Literal}
      (translated : literal? value = some constant) :
      Visits mode builder [.literal value] [.constant constant] builder
  | nested {before after : Builder} {inner : Sql.Expr} {result : Expr}
      (operands : Visits mode before [inner] [result] after) :
      Visits mode before [.nested inner] [result] after
  | binary {before after : Builder} {op : Sql.BinaryOp} {translation : BinaryOp}
      {left right : Sql.Expr} {first second : Expr} (translated : binaryOp op = .ok translation)
      (operands : Visits mode before [left, right] [first, second] after) :
      Visits mode before [.binary op left right] [.binary translation first second] after
  | unary {before after : Builder} {op : Sql.UnaryOp} {operand : Sql.Expr} {result : Expr}
      (operands : Visits mode before [operand] [result] after) :
      Visits mode before [.unary op operand] [applyUnary op result] after
  | like {before after : Builder} {negated : Bool} {subject pattern : Sql.Expr}
      {first second result : Expr}
      (operands : Visits mode before [subject, pattern] [first, second] after)
      (matched : likeCondition negated first second = .ok result) :
      Visits mode before [.like negated subject pattern] [result] after
  | between {before after : Builder} {negated : Bool} {subject low high : Sql.Expr}
      {first second third : Expr}
      (operands : Visits mode before [subject, low, high] [first, second, third] after) :
      Visits mode before [.between negated subject low high]
        [negatedIf negated (rangeFilter first second third)] after
  | inList {before after : Builder} {negated : Bool} {subject : Sql.Expr}
      {items : List Sql.Expr} {first : Expr} {others : List Expr}
      (operands : Visits mode before (subject :: items) (first :: others) after) :
      Visits mode before [.inList negated subject items] [.inList first others negated] after
  | isNull {before after : Builder} {negated : Bool} {subject : Sql.Expr} {operand result : Expr}
      (operands : Visits mode before [subject] [operand] after)
      (tested : nullFilter mode negated operand = .ok result) :
      Visits mode before [.isNull negated subject] [result] after
  | call {before after : Builder} {name : String} {args : List Sql.Expr} {distinct star : Bool}
      {entry : FunctionEntry} {operands : List Expr} {result : Expr}
      (resolved : resolveCall mode name args.length distinct star = .ok entry)
      (visited : Visits mode before args operands after)
      (applied : applyFunction mode entry distinct operands = .ok result) :
      Visits mode before [.call name args distinct star] [result] after

mutual

/-- An expression that compiles is compiled by the rules. -/
theorem visits_of_visit (e : Sql.Expr) {result : Expr} {before after : Builder}
    (ran : visit mode e before = .ok result after) : Visits mode before [e] [result] after := by
  cases e with
  | column name =>
      rw [visit] at ran
      obtain ⟨v, middle, given, done⟩ := Run.bind_eq_ok_iff.mp ran
      cases done
      exact .column given
  | literal value =>
      rw [visit] at ran
      cases translated : literal? value with
      | none =>
          rw [translated] at ran
          cases ran
      | some constant =>
          rw [translated] at ran
          cases ran
          exact .literal translated
  | nested inner =>
      rw [visit] at ran
      exact .nested (visits_of_visit inner ran)
  | binary op left right =>
      rw [visit] at ran
      cases translated : binaryOp op with
      | error construct =>
          rw [translated] at ran
          cases ran
      | ok translation =>
          rw [translated] at ran
          obtain ⟨first, middle, leftRan, ran⟩ := Run.bind_eq_ok_iff.mp ran
          obtain ⟨second, last, rightRan, done⟩ := Run.bind_eq_ok_iff.mp ran
          cases done
          exact .binary translated
            (.cons (visits_of_visit left leftRan) (visits_of_visit right rightRan))
  | unary op operand =>
      rw [visit] at ran
      obtain ⟨inner, middle, innerRan, done⟩ := Run.bind_eq_ok_iff.mp ran
      cases done
      exact .unary (visits_of_visit operand innerRan)
  | like negated subject pattern =>
      rw [visit] at ran
      obtain ⟨first, middle, subjectRan, ran⟩ := Run.bind_eq_ok_iff.mp ran
      obtain ⟨second, last, patternRan, lifted⟩ := Run.bind_eq_ok_iff.mp ran
      obtain ⟨matched, rfl⟩ := Run.liftExcept_eq_ok_iff.mp lifted
      exact .like (.cons (visits_of_visit subject subjectRan) (visits_of_visit pattern patternRan))
        matched
  | between negated subject low high =>
      rw [visit] at ran
      obtain ⟨first, _, subjectRan, ran⟩ := Run.bind_eq_ok_iff.mp ran
      obtain ⟨second, _, lowRan, ran⟩ := Run.bind_eq_ok_iff.mp ran
      obtain ⟨third, _, highRan, done⟩ := Run.bind_eq_ok_iff.mp ran
      cases done
      exact .between (.cons (visits_of_visit subject subjectRan)
        (.cons (visits_of_visit low lowRan) (visits_of_visit high highRan)))
  | inList negated subject items =>
      rw [visit] at ran
      obtain ⟨first, middle, subjectRan, ran⟩ := Run.bind_eq_ok_iff.mp ran
      obtain ⟨others, last, itemsRan, done⟩ := Run.bind_eq_ok_iff.mp ran
      cases done
      exact .inList (.cons (visits_of_visit subject subjectRan) (visits_of_visitAll items itemsRan))
  | isNull negated subject =>
      rw [visit] at ran
      obtain ⟨inner, middle, subjectRan, lifted⟩ := Run.bind_eq_ok_iff.mp ran
      obtain ⟨tested, rfl⟩ := Run.liftExcept_eq_ok_iff.mp lifted
      exact .isNull (visits_of_visit subject subjectRan) tested
  | call name args distinct star =>
      rw [visit] at ran
      cases resolved : resolveCall mode name args.length distinct star with
      | error error =>
          rw [resolved] at ran
          cases ran
      | ok entry =>
          rw [resolved] at ran
          obtain ⟨operands, middle, argsRan, lifted⟩ := Run.bind_eq_ok_iff.mp ran
          obtain ⟨applied, rfl⟩ := Run.liftExcept_eq_ok_iff.mp lifted
          exact .call resolved (visits_of_visitAll args argsRan) applied
  | parameter => cases ran
  | inQuery negated subject query => cases ran
  | existsIn query => cases ran
  | subquery query => cases ran
  | compareAny op left query => cases ran
  | compareAll op left query => cases ran
  | case operand branches otherwise => cases ran

theorem visits_of_visitAll (es : List Sql.Expr) {results : List Expr} {before after : Builder}
    (ran : visitAll mode es before = .ok results after) : Visits mode before es results after := by
  cases es with
  | nil =>
      cases ran
      exact .nil _
  | cons e rest =>
      rw [visitAll] at ran
      obtain ⟨first, middle, firstRan, ran⟩ := Run.bind_eq_ok_iff.mp ran
      obtain ⟨others, last, othersRan, done⟩ := Run.bind_eq_ok_iff.mp ran
      cases done
      exact .cons (visits_of_visit e firstRan) (visits_of_visitAll rest othersRan)

end

theorem visitAll_cons_eq_ok {e : Sql.Expr} {rest : List Sql.Expr} {results : List Expr}
    {before after : Builder} :
    visitAll mode (e :: rest) before = .ok results after ↔
      ∃ first middle others, visit mode e before = .ok first middle ∧
        visitAll mode rest middle = .ok others after ∧ results = first :: others := by
  rw [visitAll, Run.bind_eq_ok_iff]
  constructor
  · rintro ⟨first, middle, firstRan, ran⟩
    obtain ⟨others, _, othersRan, done⟩ := Run.bind_eq_ok_iff.mp ran
    cases done
    exact ⟨first, middle, others, firstRan, othersRan, rfl⟩
  · rintro ⟨first, middle, others, firstRan, othersRan, rfl⟩
    exact ⟨first, middle, firstRan, Run.bind_eq_ok_iff.mpr ⟨others, after, othersRan, rfl⟩⟩

theorem visitAll_singleton_eq_ok {e : Sql.Expr} {result : Expr} {before after : Builder} :
    visitAll mode [e] before = .ok [result] after ↔ visit mode e before = .ok result after := by
  rw [visitAll_cons_eq_ok]
  constructor
  · rintro ⟨_, _, _, ran, ⟨⟩, ⟨⟩⟩
    exact ran
  · intro ran
    exact ⟨result, after, [], ran, rfl, rfl⟩

/-- What is compiled by the rules is compiled. -/
theorem Visits.visitAll {es : List Sql.Expr} {results : List Expr} {before after : Builder}
    (visits : Visits mode before es results after) :
    visitAll mode es before = .ok results after := by
  induction visits with
  | nil => rfl
  | cons _ _ firstIh othersIh =>
      exact visitAll_cons_eq_ok.mpr
        ⟨_, _, _, visitAll_singleton_eq_ok.mp firstIh, othersIh, rfl⟩
  | column given =>
      rw [visitAll_singleton_eq_ok, visit]
      exact Run.bind_eq_ok_iff.mpr ⟨_, _, given, rfl⟩
  | literal translated =>
      rw [visitAll_singleton_eq_ok, visit, translated]
      rfl
  | nested _ ih =>
      rw [visitAll_singleton_eq_ok, visit]
      exact visitAll_singleton_eq_ok.mp ih
  | binary translated _ ih =>
      obtain ⟨_, middle, _, leftRan, ih, ⟨⟩⟩ := visitAll_cons_eq_ok.mp ih
      rw [visitAll_singleton_eq_ok, visit, translated]
      exact Run.bind_eq_ok_iff.mpr ⟨_, _, leftRan,
        Run.bind_eq_ok_iff.mpr ⟨_, _, visitAll_singleton_eq_ok.mp ih, rfl⟩⟩
  | unary _ ih =>
      rw [visitAll_singleton_eq_ok, visit]
      exact Run.bind_eq_ok_iff.mpr ⟨_, _, visitAll_singleton_eq_ok.mp ih, rfl⟩
  | like _ matched ih =>
      obtain ⟨_, middle, _, leftRan, ih, ⟨⟩⟩ := visitAll_cons_eq_ok.mp ih
      rw [visitAll_singleton_eq_ok, visit]
      refine Run.bind_eq_ok_iff.mpr ⟨_, _, leftRan,
        Run.bind_eq_ok_iff.mpr ⟨_, _, visitAll_singleton_eq_ok.mp ih, ?_⟩⟩
      rw [matched]
      rfl
  | between _ ih =>
      obtain ⟨_, middle, _, subjectRan, ih, ⟨⟩⟩ := visitAll_cons_eq_ok.mp ih
      obtain ⟨_, middle, _, lowRan, ih, ⟨⟩⟩ := visitAll_cons_eq_ok.mp ih
      rw [visitAll_singleton_eq_ok, visit]
      exact Run.bind_eq_ok_iff.mpr ⟨_, _, subjectRan, Run.bind_eq_ok_iff.mpr ⟨_, _, lowRan,
        Run.bind_eq_ok_iff.mpr ⟨_, _, visitAll_singleton_eq_ok.mp ih, rfl⟩⟩⟩
  | inList _ ih =>
      obtain ⟨_, middle, _, subjectRan, ih, ⟨⟩⟩ := visitAll_cons_eq_ok.mp ih
      rw [visitAll_singleton_eq_ok, visit]
      exact Run.bind_eq_ok_iff.mpr ⟨_, _, subjectRan, Run.bind_eq_ok_iff.mpr ⟨_, _, ih, rfl⟩⟩
  | isNull _ tested ih =>
      rw [visitAll_singleton_eq_ok, visit]
      refine Run.bind_eq_ok_iff.mpr ⟨_, _, visitAll_singleton_eq_ok.mp ih, ?_⟩
      rw [tested]
      rfl
  | call resolved _ applied ih =>
      rw [visitAll_singleton_eq_ok, visit, resolved]
      refine Run.bind_eq_ok_iff.mpr ⟨_, _, ih, ?_⟩
      rw [applied]
      rfl

theorem visits_of_expression {e : Sql.Expr} {result : Expr} {before after : Builder}
    (ran : expression mode e before = .ok result after) :
    Visits mode before [e] [result] after := by
  rw [expression_eq_visit] at ran
  exact visits_of_visit e ran

end TripleTables.Compile
