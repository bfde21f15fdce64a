import TripleTables.Proofs.Compile.History
import TripleTables.Proofs.Compile.Scope
import TripleTables.Proofs.Functions

/-!
# Compiling keeps the meaning of expressions

An expression and what it is compiled to have the same value under every
assignment of values to variables, if each column is read from the variable of
the column that its name means.

A transform works on what the arguments of a call are compiled to, so what it hands on
is told by these.  Where the transforms do the same to all expressions with the same
values, as the standard ones do, it is told by the values of the arguments.
-/

namespace TripleTables.Compile

open TripleTables.Graph
open TripleTables.Builder (Registers SameView)
open Relation (ReflTransGen)

/-! ## The variable that a column is read from -/

/-- The variable from which a column is read: that of the column of a bound
table or, where no column is meant, that of a result column. -/
def Mode.reads? (mode : Mode) (builder : Builder) (parts : Sql.ObjectName) : Option Variable := do
  let name ← Name.ofColumnParts? parts
  match builder.resolveColumn name with
  | .ok place =>
      let binding ← builder.bindings[place.1]?
      let column ← binding.table.columns[place.2]?
      return binding.columnVariable column
  | .error (.unknownColumn _) => shownVariable? mode parts name builder
  | .error _ => none

variable {mode : Mode}

/-- Columns are read from the same variables while columns are registered. -/
theorem reads?_along {before after : Builder} (path : ReflTransGen Registers before after) :
    mode.reads? after = mode.reads? before := by
  induction path with
  | refl => rfl
  | tail _ registers ih =>
      cases registers
      exact ih

/-- What a column name gives is the variable that it is read from. -/
theorem reads?_of_columnVariable {builder next : Builder} {parts : Sql.ObjectName} {v : Variable}
    (consistent : builder.Consistent) (ran : columnVariable mode parts builder = .ok v next) :
    mode.reads? builder parts = some v := by
  cases named : Name.ofColumnParts? parts with
  | none =>
      simp only [columnVariable, named] at ran
      cases ran
  | some name =>
      have given := Run.outcome_of_ok ran
      rw [outcome_columnVariable named] at given
      rcases Builder.addColumn_spec name mode.optionalColumns builder with
        ⟨error, unresolved, failed⟩ | ⟨place, column, resolved, found, known⟩ |
        ⟨place, resolved, _, registering⟩
      · -- Only a name that means no column may mean a result column.
        rw [Run.outcome_of_error failed] at given
        simp only [Mode.reads?, named, unresolved, Option.bind_eq_bind, Option.bind_some]
        cases error with
        | unknownColumn unknown =>
            cases shown : shownVariable? mode parts name builder with
            | none => simp [shown] at given
            | some other =>
                simp only [shown] at given
                cases given
                rfl
        | _ => cases given
      · rw [Run.outcome_of_ok known] at given
        cases given
        obtain ⟨binding, declared, inGroup, bound, inTable, rfl⟩ :=
          consistent.exists_of_registered? found
        simp [Mode.reads?, named, resolved, bound, inTable, Builder.mention]
      · rcases Builder.registerColumn_spec place mode.optionalColumns builder with
          ⟨error, otherwise, failed⟩ | ⟨binding, column, _, _, _, bound, inTable, _, _, done⟩
        · rw [Run.outcome_of_error (registering.trans failed)] at given
          cases error with
          | unknownColumn unknown => exact absurd rfl (otherwise unknown)
          | _ => cases given
        · rw [Run.outcome_of_ok (registering.trans done)] at given
          cases given
          simp [Mode.reads?, named, resolved, bound, inTable]

/-- What an expression is compiled to in a builder. -/
def Mode.compiled? (mode : Mode) (builder : Builder) (e : Sql.Expr) : Option Expr :=
  (Run.answer (expression mode e) builder).toOption

/-- Expressions that are compiled one after the other are compiled to what each of them
is compiled to from the start. -/
theorem Visits.compiled? {start before after : Builder} {es : List Sql.Expr}
    {results : List Expr} (visits : Visits mode before es results after)
    (view : SameView mode.resolveAliases start before) :
    es.mapM (mode.compiled? start) = some results := by
  have ran := visits.visitAll
  clear visits
  induction es generalizing before results with
  | nil =>
      cases ran
      rfl
  | cons e rest ih =>
      obtain ⟨first, middle, others, firstRan, othersRan, rfl⟩ := visitAll_cons_eq_ok.mp ran
      have path := (alike_moves.visit e).of_ok firstRan
      have here : mode.compiled? start e = some first := by
        rw [Mode.compiled?, (answersAlike_expression mode.optionalColumns e).answer view]
        exact congrArg Except.toOption
          (Run.answer_of_ok ((congrFun (expression_eq_visit e) before).trans firstRan))
      rw [List.mapM_cons, here, ih (view.along .refl path) othersRan]
      rfl

/-! ## The value of single nodes -/

variable {V : Type} {M : Meaning V} {assignment : Variable → Option V}

theorem value_literal? {literal : Sql.Literal} {constant : Literal}
    (translated : literal? literal = some constant) :
    literal.value M = some (constant.value M) := by
  cases literal with
  | null => cases translated
  | _ =>
      cases translated
      rfl

theorem value_binaryOp {op : Sql.BinaryOp} {translated : BinaryOp}
    (found : binaryOp op = .ok translated) : translated.value M = op.value M := by
  cases op <;> cases found <;> rfl

theorem value_applyUnary (op : Sql.UnaryOp) (operand : Expr) :
    (applyUnary op operand).value M assignment = op.value M (operand.value M assignment) := by
  cases op with
  | not => rw [applyUnary, Expr.value, Sql.UnaryOp.value]
  | minus => rw [applyUnary, Expr.value, Sql.UnaryOp.value]
  | plus => rfl

theorem value_negatedIf (negated : Bool) (condition : Expr) :
    (negatedIf negated condition).value M assignment =
      M.negatedIf negated (condition.value M assignment) := by
  cases negated with
  | true => simp [negatedIf, Meaning.negatedIf, Expr.value]
  | false => rfl

theorem value_rangeFilter (subject low high : Expr) :
    (rangeFilter subject low high).value M assignment =
      M.and (strictly M.greaterEqual (subject.value M assignment) (low.value M assignment))
        (strictly M.lessEqual (subject.value M assignment) (high.value M assignment)) := by
  simp only [rangeFilter, Expr.value, BinaryOp.value]

/-- A value is like a pattern without wildcards when it equals its text. -/
theorem like_of_plain {pattern : String} {own : List Char}
    (plain : likeText? pattern.toList = some own) (subject : V) :
    M.like subject (M.string pattern) = M.equal subject (M.string (String.ofList own)) := by
  simp only [Meaning.like, M.text_string, Option.bind_eq_bind, Option.bind_some]
  cases isText : M.text? subject with
  | none => simp [plain]
  | some text =>
      rw [M.equal_texts isText (M.text_string _)]
      have same : LikeMatches pattern.toList text.toList ↔ text = String.ofList own := by
        rw [likeMatches_iff_eq plain, ← String.toList_inj, String.toList_ofList]
      simp only [same]

/-- A value is like a pattern with wildcards when it is a text that matches the
regular expression of the pattern. -/
theorem like_of_wild {pattern written : String} {regex : Regex}
    (wild : likeText? pattern.toList = none) (read : Regex.ofText? written = some regex)
    (same : ∀ text, regex.Matches (fun _ => True) text ↔ LikeMatches pattern.toList text)
    (subject : V) :
    M.like subject (M.string pattern) = do
      let text ← M.text? subject
      return M.boolean (← M.regex written none text) := by
  simp only [Meaning.like, M.text_string, Option.bind_eq_bind, Option.bind_some]
  cases isText : M.text? subject with
  | none => simp [wild]
  | some text =>
      obtain ⟨answer, answered, isMatch⟩ := M.regex_anchored read text
      have decided : decide (LikeMatches pattern.toList text.toList) = answer := by
        rw [Bool.eq_iff_iff, decide_eq_true_iff, isMatch, same]
      simp [answered, decided]

/-- The condition that a LIKE pattern is turned into holds of the values that
are like the pattern. -/
theorem value_filter (subject : Expr) (pattern : String) :
    ((LikePattern.ofText pattern).filter subject).value M assignment =
      strictly M.like (subject.value M assignment) (some (M.string pattern)) := by
  cases plain : likeText? pattern.toList with
  | some own =>
      rw [LikePattern.ofText_of_plain plain, LikePattern.filter, Expr.value]
      simp [BinaryOp.value, strictly, Expr.string, Expr.value, Literal.value, like_of_plain plain]
  | none =>
      obtain ⟨written, regex, translated, read, same⟩ := LikePattern.exists_regex_of_wild plain
      have everywhere : ∀ text, regex.Matches (fun _ => True) text ↔
          LikeMatches pattern.toList text := fun text => same _ text fun _ _ => trivial
      rw [translated, LikePattern.filter, Expr.value]
      simp [strictly, like_of_wild plain read everywhere]

theorem value_likeCondition {negated : Bool} {subject pattern condition : Expr}
    (compiled : likeCondition negated subject pattern = .ok condition) :
    condition.value M assignment =
      M.negatedIf negated
        (strictly M.like (subject.value M assignment) (pattern.value M assignment)) := by
  unfold likeCondition likeFilter? at compiled
  split at compiled
  · rename_i condition found
    split at found
    · cases found
      cases compiled
      rw [value_negatedIf, value_filter, Expr.value, Literal.value]
    · contradiction
  · contradiction

/-- A variable is absent when it is not bound. -/
theorem value_nullFilter {negated : Bool} {subject condition : Expr}
    (compiled : nullFilter mode negated subject = .ok condition) :
    condition.value M assignment =
      some (M.boolean
        (if negated then (subject.value M assignment).isSome
          else (subject.value M assignment).isNone)) := by
  cases subject with
  | «variable» v =>
      cases compiled
      cases negated with
      | true => simp [negatedIf, Expr.value]
      | false =>
          simp [negatedIf, Expr.value, Meaning.not, Meaning.truth, M.truth_boolean, Kleene.not]
  | _ => cases compiled

/-- A call means the target of the function applied to what it is handed. -/
theorem value_applyFunction {env : Sql.Environment V} {name : String} {entry : FunctionEntry}
    {distinct : Bool} {args : List Sql.Expr} {operands : List Expr} {result : Expr}
    (found : env.functions.get? name = some entry)
    (handed : Expr.values M assignment (entry.handOn operands) =
      env.handed entry args (Expr.values M assignment operands))
    (compiled : applyFunction mode entry distinct operands = .ok result) :
    result.value M assignment = env.call M name args (Expr.values M assignment operands) := by
  simp only [Sql.Environment.call, found]
  rcases applyFunction_eq_ok compiled with ⟨function, target, rfl⟩ | ⟨function, target, rfl, _⟩
  · simp only [target]
    rw [Expr.value, handed]
  · simp only [target]
    rw [Expr.value]

/-! ## Expressions -/

/-- The environment of the expressions that are compiled in a builder: columns are read
from variables, and functions are handed the given values. -/
def Mode.environment (mode : Mode) (builder : Builder) (assignment : Variable → Option V)
    (handing : FunctionEntry → List Sql.Expr → List (Option V) → List (Option V)) :
    Sql.Environment V where
  functions := mode.functions
  handing := handing
  column name := (mode.reads? builder name).bind assignment

section Visits

variable {start : Builder}
  {handing : FunctionEntry → List Sql.Expr → List (Option V) → List (Option V)}

/-- The environment hands on the values of what the transforms give. -/
def HandsOn (mode : Mode) (start : Builder) (M : Meaning V) (assignment : Variable → Option V)
    (handing : FunctionEntry → List Sql.Expr → List (Option V) → List (Option V)) : Prop :=
  ∀ {before after : Builder} {name : String} {entry : FunctionEntry}
    {transform : List Expr → List Expr} {args : List Sql.Expr} {operands : List Expr},
    SameView mode.resolveAliases start before → Visits mode before args operands after →
      mode.functions.get? name = some entry → entry.transform = some transform →
        Expr.values M assignment (transform operands) =
          handing entry args (Expr.values M assignment operands)

/-- What expressions are compiled to has the values of the expressions. -/
theorem Visits.values_eq (handsOn : HandsOn mode start M assignment handing)
    {before after : Builder} {es : List Sql.Expr} {results : List Expr}
    (visits : Visits mode before es results after)
    (view : SameView mode.resolveAliases start before)
    (reads : mode.reads? before = mode.reads? start) :
    Expr.values M assignment results =
      Sql.Expr.values M (mode.environment start assignment handing) es := by
  induction visits with
  | nil => rfl
  | cons first others firstIh othersIh =>
      have early := firstIh view reads
      have late := othersIh (view.along .refl first.registers)
        ((reads?_along first.registers).trans reads)
      simp only [Expr.values, Sql.Expr.values, List.cons.injEq, and_true] at early ⊢
      exact ⟨early, late⟩
  | column given =>
      have read := reads?_of_columnVariable view.otherConsistent given
      rw [reads] at read
      simp [Expr.values, Sql.Expr.values, Expr.value, Sql.Expr.value, Mode.environment, read]
  | literal translated =>
      simp [Expr.values, Sql.Expr.values, Expr.value, Sql.Expr.value, value_literal? translated]
  | nested operands ih =>
      simpa [Expr.values, Sql.Expr.values, Sql.Expr.value] using ih view reads
  | binary translated operands ih =>
      have values := ih view reads
      simp only [Expr.values, Sql.Expr.values, List.cons.injEq, and_true] at values ⊢
      rw [Expr.value, Sql.Expr.value, values.1, values.2, value_binaryOp translated]
  | unary operands ih =>
      have values := ih view reads
      simp only [Expr.values, Sql.Expr.values, List.cons.injEq, and_true] at values ⊢
      rw [value_applyUnary, Sql.Expr.value, values]
  | like operands matched ih =>
      have values := ih view reads
      simp only [Expr.values, Sql.Expr.values, List.cons.injEq, and_true] at values ⊢
      rw [value_likeCondition matched, Sql.Expr.value, values.1, values.2]
  | between operands ih =>
      have values := ih view reads
      simp only [Expr.values, Sql.Expr.values, List.cons.injEq, and_true] at values ⊢
      rw [value_negatedIf, value_rangeFilter, Sql.Expr.value, values.1, values.2.1, values.2.2]
  | inList operands ih =>
      have values := ih view reads
      simp only [Expr.values, Sql.Expr.values, List.cons.injEq, and_true] at values ⊢
      rw [Expr.value, Sql.Expr.value, values.1, values.2]
  | isNull operands tested ih =>
      have values := ih view reads
      simp only [Expr.values, Sql.Expr.values, List.cons.injEq, and_true] at values ⊢
      rw [value_nullFilter tested, Sql.Expr.value, values]
  | @call _ _ name args distinct star entry operands _ resolved visited applied ih =>
      obtain ⟨found, _, _⟩ := resolveCall_eq_ok resolved
      have handed : Expr.values M assignment (entry.handOn operands) =
          (mode.environment start assignment handing).handed entry args
            (Expr.values M assignment operands) := by
        unfold FunctionEntry.handOn Sql.Environment.handed
        cases transformed : entry.transform with
        | none => rfl
        | some transform => exact handsOn view visited found transformed
      simp only [Expr.values, Sql.Expr.values, List.cons.injEq, and_true]
      rw [value_applyFunction found handed applied, Sql.Expr.value, ih view reads]

end Visits

/-- The values that a transform hands on when the arguments are compiled in the
builder. -/
def Mode.transformed (mode : Mode) (builder : Builder) (M : Meaning V)
    (assignment : Variable → Option V) (entry : FunctionEntry) (args : List Sql.Expr)
    (_ : List (Option V)) : List (Option V) :=
  match args.mapM (mode.compiled? builder) with
  | some operands => Expr.values M assignment (entry.handOn operands)
  | none => []

theorem handsOn_transformed (start : Builder) :
    HandsOn mode start M assignment (mode.transformed start M assignment) := by
  intro before after name entry transform args operands view visits _ transformed
  simp only [Mode.transformed, visits.compiled? view, FunctionEntry.handOn, transformed]

theorem handsOn_of_actsBy {action : FunctionEntry → List (Option V) → List (Option V)}
    (actsBy : mode.functions.ActsBy M action) (start : Builder) :
    HandsOn mode start M assignment fun entry _ values => action entry values :=
  fun _ _ found transformed => actsBy _ _ _ found transformed assignment _

/-- Compiling keeps the meaning of an expression: in every builder that can be
reached, with every table of functions and in every clause, the result has the
value of the expression under every assignment, if each column is read from the
variable of the column that its name means.  A function means its target applied to
the transform of its arguments; where the transforms act on values, it means its target
applied to what the action makes of the values of its arguments. -/
theorem value_expression {V : Type} (M : Meaning V) {catalog : Catalog} {builder next : Builder}
    (reachable : Builder.Reachable catalog builder) (mode : Mode) {e : Sql.Expr} {result : Expr}
    (ran : expression mode e builder = .ok result next) (assignment : Variable → Option V) :
    result.value M assignment =
        e.value M (mode.environment builder assignment (mode.transformed builder M assignment)) ∧
      ∀ action, mode.functions.ActsBy M action →
        result.value M assignment =
          e.value M (mode.environment builder assignment fun entry _ => action entry) := by
  have consistent := reachable.consistent
  have value : ∀ {handing}, HandsOn mode builder M assignment handing →
      result.value M assignment = e.value M (mode.environment builder assignment handing) := by
    intro handing handsOn
    have values := (visits_of_expression ran).values_eq handsOn
      ⟨consistent, consistent, rfl, fun _ => rfl⟩ rfl
    simpa [Expr.values, Sql.Expr.values] using values
  exact ⟨value (handsOn_transformed builder), fun action actsBy =>
    value (handsOn_of_actsBy actsBy builder)⟩

/-- An operation on integers, which has no value elsewhere. -/
def onIntegers (operation : Int → Int → Literal) : Literal → Literal → Option Literal
  | .integer m, .integer n => some (operation m n)
  | _, _ => none

open Classical in
/-- A meaning over the typed constants, each of which means itself. -/
noncomputable def constants : Meaning Literal where
  string := .string
  integer := .integer
  decimal := .decimal
  boolean := .boolean
  date := .date
  time := .time
  timestamp := .timestamp
  equal first second := some (.boolean (decide (first = second)))
  notEqual first second := some (.boolean (decide (first ≠ second)))
  less := onIntegers fun m n => .boolean (decide (m < n))
  lessEqual := onIntegers fun m n => .boolean (decide (m ≤ n))
  greater := onIntegers fun m n => .boolean (decide (m > n))
  greaterEqual := onIntegers fun m n => .boolean (decide (m ≥ n))
  plus := onIntegers fun m n => .integer (m + n)
  minus := onIntegers fun m n => .integer (m - n)
  times := onIntegers fun m n => .integer (m * n)
  divide := onIntegers fun m n => .integer (m / n)
  negative
    | .integer n => some (.integer (-n))
    | _ => none
  function
    | .strlen, [.string text] => some (.integer text.length)
    | _, _ => none
  truth?
    | .boolean b => some b
    | _ => none
  text?
    | .string text => some text
    | _ => none
  regex pattern _ text :=
    (Regex.ofText? pattern).map fun regex => decide (regex.Matches (fun _ => True) text.toList)
  truth_boolean _ := rfl
  text_string _ := rfl
  equal_texts := by
    intro first second text other isText isOther
    cases first with
    | string =>
        cases isText
        cases second with
        | string =>
            cases isOther
            simp
        | _ => cases isOther
    | _ => cases isText
  regex_anchored := by
    intro pattern regex read text
    exact ⟨decide (regex.Matches (fun _ => True) text.toList), by simp [read], by simp⟩

/-- The condition
`(x LIKE 'a\_%' AND y IS NULL OR y BETWEEN 1 AND 2) AND LATEST(LENGTH(x), y) NOT IN (3, +5)`. -/
def sampleCondition : Sql.Expr :=
  .binary .and
    (.nested (.binary .or
      (.binary .and (.like false (.column ["foo", "x"]) (.literal (.string "a\\_%")))
        (.isNull false (.column ["y"])))
      (.between false (.column ["y"]) (.literal (.integer 1)) (.literal (.integer 2)))))
    (.inList true
      (.call "latest" [.call "LENGTH" [.column ["x"]] false false, .column ["y"]] false false)
      [.literal (.integer 3), .unary .plus (.literal (.integer 5))])

/-- A table with a function for the last argument that is present. -/
def sampleFunctions : FunctionTable :=
  [FunctionTable.scalar "LENGTH" .strlen 1 1,
    FunctionTable.scalarAs List.reverse "LATEST" .coalesce 2].foldl .register {}

theorem actsBy_sampleFunctions {V : Type} (M : Meaning V) :
    sampleFunctions.ActsBy M fun _ => List.reverse := by
  intro name entry transform found transformed assignment args
  have reversed : transform = List.reverse := by
    rcases List.mem_pair.mp (FunctionTable.mem_of_get?_registered found).1 with rfl | rfl
    · cases transformed
    · exact (Option.some.inj transformed).symm
  rw [reversed, Expr.values_eq_map, Expr.values_eq_map, List.map_reverse]

/-- The two tables bound one after the other. -/
def sampleOperations : List Builder.Operation :=
  [.addTable (Name.ofSegments none none (some "foo") none) none false,
   .addTable (Name.ofSegments none none (some "bar") none) none false]

/-- One column holds a text and the other is absent. -/
def sampleAssignment (v : Variable) : Option Literal :=
  if v = Variable.ofText "s·foo·x" then some (.string "a_bc") else none

/-- The clause that the condition stands in. -/
def sampleMode : Mode :=
  { functions := sampleFunctions, clause := "WHERE clause" }

theorem value_expression_sampleCondition :
    ∃ catalog result next, twoTables.assemble = .ok catalog ∧
      Builder.Reachable catalog (Builder.afterAll sampleOperations { catalog }) ∧
      expression sampleMode sampleCondition (Builder.afterAll sampleOperations { catalog }) =
        .ok result next ∧
      sampleFunctions.ActsBy constants (fun _ => List.reverse) ∧
      result.value constants sampleAssignment = some (.boolean true) := by
  have checked : ∃ catalog, twoTables.assemble = .ok catalog ∧
      (match expression sampleMode sampleCondition
          (Builder.afterAll sampleOperations { catalog }) with
        | .ok _ _ => true
        | .error _ _ => false) = true ∧
      sampleCondition.value constants (sampleMode.environment
        (Builder.afterAll sampleOperations { catalog }) sampleAssignment fun _ _ => List.reverse) =
          some (.boolean true) := by
    decide +kernel
  obtain ⟨catalog, assembled, succeeds, isTrue⟩ := checked
  have reachable : Builder.Reachable catalog (Builder.afterAll sampleOperations { catalog }) :=
    (Builder.Reachable.empty none false).afterAll sampleOperations
  cases ran : expression sampleMode sampleCondition
      (Builder.afterAll sampleOperations { catalog }) with
  | error error next => simp [ran] at succeeds
  | ok result next =>
      have actsBy := actsBy_sampleFunctions constants
      exact ⟨catalog, result, next, assembled, reachable, ran, actsBy,
        ((value_expression constants reachable _ ran sampleAssignment).2 _ actsBy).trans isTrue⟩

end TripleTables.Compile
