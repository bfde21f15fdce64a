import TripleTables.Proofs.Compile.Blanking
import TripleTables.Proofs.Compile.Scope
import TripleTables.Proofs.Functions
import TripleTables.Proofs.Sparql.Reader
import TripleTables.Proofs.Sparql.Structure
import TripleTables.Proofs.Sql.Blanking
import TripleTables.Proofs.Sql.RoundTrip

/-!
# Texts do not change what is compiled

A statement and the statement without its texts are compiled in step: at every
point both have failed with the same error, or both have a builder and the
builders differ only in texts (`InStep`).  So statements that differ only in
texts are compiled to queries that differ only in texts, and what is written of
these differs only inside strings.

A transform of arguments could look at a text and hand on something else for it.  So
this is said of tables whose transforms do not (`FunctionTable.TextBlind`), such as that
of the standard functions.
-/

namespace TripleTables

open TripleTables.Graph

namespace Compile

variable {mode : Mode}

/-- From builders that differ only in texts, the steps fail with the same error,
or they give related values and again such builders. -/
def InStep {α β : Type} (rel : α → β → Prop) (step : Compile α) (other : Compile β) : Prop :=
  ∀ first second, first.SameButTexts second →
    Run.SameResult (fun result image => rel result.1 image.1 ∧ result.2.SameButTexts image.2)
      (Run.outcome step first) (Run.outcome other second)

namespace InStep

variable {α β γ δ : Type} {rel : α → β → Prop} {further : γ → δ → Prop}

theorem pure {value : α} {image : β} (related : rel value image) :
    InStep rel (pure value) (pure image) :=
  fun _ _ same => .ok ⟨related, same⟩

theorem throw (error : CompileError) : InStep rel (throw error) (throw error) :=
  fun _ _ _ => .error error

theorem bind {step : Compile α} {other : Compile β} {next : α → Compile γ}
    {following : β → Compile δ} (early : InStep rel step other)
    (late : ∀ value image, rel value image → InStep further (next value) (following image)) :
    InStep further (step >>= next) (other >>= following) := by
  intro first second same
  rw [Run.outcome_bind, Run.outcome_bind]
  exact (early first second same).bind fun _ _ related =>
    late _ _ related.1 _ _ related.2

theorem lift {result : Except CompileError α} {image : Except CompileError β}
    (both : Run.SameResult rel result image) :
    InStep rel (liftExcept result) (liftExcept image) := by
  cases both with
  | ok related => exact pure related
  | error error => exact throw error

/-- What is known of a value is known of it beside the other value. -/
theorem and {holds : α → Prop} {step : Compile α} {other : Compile β}
    (inStep : InStep rel step other)
    (known : ∀ {before value next}, step before = .ok value next → holds value) :
    InStep (fun value image => rel value image ∧ holds value) step other :=
  fun first second same => (inStep first second same).and fun _ _ ran related =>
    ⟨⟨related.1, known (Run.ok_of_outcome ran)⟩, related.2⟩

theorem forM {step : α → Compile PUnit} {image : α → α} {values : List α}
    (each : ∀ value ∈ values, InStep Eq (step value) (step (image value))) :
    InStep Eq (values.forM step) ((values.map image).forM step) := by
  induction values with
  | nil => exact pure rfl
  | cons value rest ih =>
      rw [List.forall_mem_cons] at each
      exact bind each.1 fun _ _ _ => ih each.2

theorem optionForM {step : α → Compile PUnit} {image : α → α} {value : Option α}
    (each : ∀ inner ∈ value, InStep Eq (step inner) (step (image inner))) :
    InStep Eq (value.forM step) ((value.map image).forM step) := by
  cases value with
  | none => exact pure rfl
  | some inner => exact each inner rfl

theorem ofBuild {rel : α → α → Prop} {step other blank : Build α}
    (mirrored : Run.Mirrors Builder.blanked (Run.outcome step) (Run.outcome blank))
    (mirroredToo : Run.Mirrors Builder.blanked (Run.outcome other) (Run.outcome blank))
    (kept : ∀ {before value next}, before.IsClean → step before = .ok value next →
      next.IsClean ∧ rel value value) :
    InStep rel (ofBuild step) (ofBuild other) := by
  intro first second same
  rw [Run.outcome_ofBuild, Run.outcome_ofBuild]
  exact (same.sameResult rel mirrored mirroredToo fun ran => kept same.clean ran).mapError _

end InStep

/-- A column name gives the same clean variable. -/
theorem inStep_columnVariable (parts : Sql.ObjectName) :
    InStep (fun v w => v = w ∧ v.IsClean) (columnVariable mode parts)
      (columnVariable mode parts) := by
  cases named : Name.ofColumnParts? parts with
  | none =>
      simp only [columnVariable, named]
      exact .throw _
  | some name =>
      intro first second same
      have mirrored := Builder.reflects_blanked.addColumn name mode.optionalColumns
      have column := same.sameResult (fun v w => v = w ∧ v.IsClean) mirrored mirrored
        fun ran => (same.clean.addColumn ran).imp_right fun clean => ⟨rfl, clean⟩
      have shown : shownVariable? mode parts name first =
          shownVariable? mode parts name second := by
        simp only [shownVariable?]
        rw [← first.projectionVariable?_blanked, same.blanked_eq,
          second.projectionVariable?_blanked]
      rw [outcome_columnVariable named, outcome_columnVariable named, ← shown]
      generalize Run.outcome (Builder.addColumn name mode.optionalColumns) first = result
        at column ⊢
      generalize Run.outcome (Builder.addColumn name mode.optionalColumns) second = image
        at column ⊢
      cases column with
      | ok related => exact .ok related
      | error error =>
          cases error with
          | unknownColumn unknown =>
              -- Result columns have the same names and variables in both builders.
              dsimp only
              cases found : shownVariable? mode parts name first with
              | none => exact .error _
              | some v =>
                  have clean : v.IsClean := by
                    unfold shownVariable? at found
                    split at found
                    · obtain ⟨projection, listed, rfl⟩ := Option.map_eq_some_iff.mp found
                      exact same.clean.shown projection (List.mem_of_find?_eq_some listed)
                    · cases found
                  exact .ok ⟨⟨rfl, clean⟩, same⟩
          | _ => exact .error _

section Results

variable {first second third first' second' third' : Expr}

theorem sameButTexts_negatedIf (same : first.SameButTexts first') (negated : Bool) :
    (negatedIf negated first).SameButTexts (negatedIf negated first') := by
  cases negated with
  | true => exact same.not
  | false => exact same

theorem sameButTexts_applyUnary (same : first.SameButTexts first') (op : Sql.UnaryOp) :
    (applyUnary op first).SameButTexts (applyUnary op first') := by
  cases op with
  | not => exact same.not
  | minus => exact same.negate
  | plus => exact same

theorem sameButTexts_rangeFilter (subject : first.SameButTexts first')
    (low : second.SameButTexts second') (high : third.SameButTexts third') :
    (rangeFilter first second third).SameButTexts (rangeFilter first' second' third') :=
  .binary _ (.binary _ subject low) (.binary _ subject high)

theorem sameResult_nullFilter (same : first.SameButTexts first') (negated : Bool) :
    Run.SameResult Expr.SameButTexts (nullFilter mode negated first)
      (nullFilter mode negated first') := by
  have clean := same.clean
  cases Expr.sameNode_of_blanked_eq same.blanked_eq with
  | «variable» v => exact .ok (sameButTexts_negatedIf (Expr.sameButTexts_bound clean) _)
  | _ => exact .error _

/-- The same pattern asks for the same of subjects that differ in texts. -/
theorem sameResult_likeCondition (same : first.SameButTexts first') (negated : Bool)
    (text : String) :
    Run.SameResult Expr.SameButTexts (likeCondition negated first (.constant (.string text)))
      (likeCondition negated first' (.constant (.string text))) := by
  refine .ok (sameButTexts_negatedIf ?_ negated)
  cases LikePattern.ofText text with
  | exact wanted => exact .binary _ same (Expr.sameButTexts_constant rfl trivial)
  | regex pattern => exact .regex same pattern none

/-- A pattern that is no string is refused. -/
theorem likeCondition_of_ne_string {subject pattern : Expr} (negated : Bool)
    (noString : ∀ text, pattern ≠ .constant (.string text)) :
    likeCondition negated subject pattern = .error (.unsupported .likePattern none) := by
  have none : likeFilter? subject pattern = none := by
    unfold likeFilter?
    split
    · exact absurd rfl (noString _)
    · rfl
  rw [likeCondition, none]

theorem sameResult_applyFunction {name : String} {entry : FunctionEntry} (distinct : Bool)
    {args others : List Expr} (blind : mode.functions.TextBlind)
    (found : mode.functions.get? name = some entry)
    (same : List.Forall₂ Expr.SameButTexts args others) :
    Run.SameResult Expr.SameButTexts (applyFunction mode entry distinct args)
      (applyFunction mode entry distinct others) := by
  have applied := blind.handOn found same
  unfold applyFunction
  generalize entry.handOn args = args at applied ⊢
  generalize entry.handOn others = others at applied ⊢
  cases entry.target with
  | scalar function => exact .ok (.call function applied)
  | aggregate function =>
      have arg : Option.Rel Expr.SameButTexts args.head? others.head? := by
        cases applied with
        | nil => exact .none
        | cons first _ => exact .some first
      have nested : args.head?.any Expr.containsAggregate =
          others.head?.any Expr.containsAggregate := by
        generalize args.head? = arg, others.head? = other at arg ⊢
        cases arg with
        | none => rfl
        | some same => exact same.containsAggregate_eq
      dsimp only
      rw [nested]
      split
      · exact .error _
      · exact .ok (.aggregate function distinct arg)

end Results

/-- What is just a string is compiled to the string. -/
theorem visit_of_text? {e : Sql.Expr} {text : String} (isText : e.text? = some text) :
    visit mode e = pure (.constant (.string text)) := by
  fun_induction Sql.Expr.text? e with
  | case1 value =>
      cases isText
      rfl
  | case2 inner ih => exact ih isText
  | case3 operand ih =>
      rw [visit, ih isText]
      rfl
  | case4 => cases isText

theorem ne_string_of_not_isLeaf {e : Expr} (compound : e.isLeaf = false) (text : String) :
    e ≠ .constant (.string text) := by
  rintro rfl
  cases compound

theorem Visits.ne_string {es : List Sql.Expr} {results : List Expr} {before after : Builder}
    (visits : Visits mode before es results after) :
    List.Forall₂ (fun e result => e.text? = none → ∀ text, result ≠ .constant (.string text))
      es results := by
  induction visits with
  | nil => exact .nil
  | cons _ _ first others =>
      cases first with
      | cons head _ => exact .cons head others
  | nested _ ih =>
      cases ih with
      | cons inner _ => exact .cons inner .nil
  | @unary _ _ op _ _ _ ih =>
      cases ih with
      | cons inner _ =>
          cases op with
          | plus => exact .cons inner .nil
          | not | minus => exact .cons (fun _ _ => nofun) .nil
  | @literal _ value _ translated =>
      cases value with
      | string value => exact .cons nofun .nil
      | null => cases translated
      | _ =>
          cases translated
          exact .cons (fun _ _ => nofun) .nil
  | like _ matched _ =>
      exact .cons (fun _ => ne_string_of_not_isLeaf (not_isLeaf_of_likeCondition matched)) .nil
  | isNull _ tested _ =>
      exact .cons (fun _ => ne_string_of_not_isLeaf (not_isLeaf_of_nullFilter tested)) .nil
  | call _ _ applied _ =>
      exact .cons (fun _ => ne_string_of_not_isLeaf (not_isLeaf_of_applyFunction applied)) .nil
  | between _ _ => exact .cons (fun _ => ne_string_of_not_isLeaf (not_isLeaf_negatedIf _ rfl)) .nil
  | _ => exact .cons (fun _ _ => nofun) .nil

/-- Nothing else is compiled to a string. -/
theorem ne_string_of_visit {e : Sql.Expr} (noText : e.text? = none) {result : Expr}
    {before after : Builder} (ran : visit mode e before = .ok result after) (text : String) :
    result ≠ .constant (.string text) := by
  cases (visits_of_visit e ran).ne_string with
  | cons only _ => exact only noText text

mutual

/-- An expression and the expression without its texts are compiled in step. -/
theorem inStep_visit (blind : mode.functions.TextBlind) (e : Sql.Expr) (quiet : e.IsQuiet) :
    InStep Expr.SameButTexts (visit mode e) (visit mode (e.rewritten Sql.blanking)) := by
  cases e with
  | column name =>
      rw [Sql.Expr.rewritten, Sql.blanking_name, visit]
      refine (inStep_columnVariable name).bind ?_
      rintro v _ ⟨rfl, clean⟩
      exact .pure (Expr.sameButTexts_variable clean)
  | literal value =>
      simp only [Sql.Expr.IsQuiet, Sql.Expr.parts, Sql.Part.every_cons] at quiet
      rw [Sql.Expr.rewritten, Sql.blanking_literal, visit, visit]
      cases value with
      | null => exact .throw _
      | decimal digits => exact .pure (Expr.sameButTexts_constant rfl quiet.1)
      | _ => exact .pure (Expr.sameButTexts_constant rfl trivial)
  | nested inner =>
      simp only [Sql.Expr.IsQuiet, Sql.Expr.parts, Sql.Part.every_cons] at quiet
      rw [Sql.Expr.rewritten, visit, visit]
      exact inStep_visit blind inner quiet.2
  | binary op left right =>
      simp only [Sql.Expr.IsQuiet, Sql.Expr.parts, Sql.Part.every_cons,
        Sql.Part.every_append] at quiet
      rw [Sql.Expr.rewritten, visit, visit]
      cases binaryOp op with
      | error construct => exact .throw _
      | ok op =>
          exact (inStep_visit blind left quiet.2.1).bind fun _ _ left =>
            (inStep_visit blind right quiet.2.2).bind fun _ _ right => .pure (.binary op left right)
  | unary op operand =>
      simp only [Sql.Expr.IsQuiet, Sql.Expr.parts, Sql.Part.every_cons] at quiet
      rw [Sql.Expr.rewritten, visit, visit]
      exact (inStep_visit blind operand quiet.2).bind fun _ _ operand =>
        .pure (sameButTexts_applyUnary operand op)
  | like negated subject pattern =>
      simp only [Sql.Expr.IsQuiet, Sql.Expr.parts, Sql.Part.every_cons,
        Sql.Part.every_append] at quiet
      rw [Sql.Expr.rewritten, Sql.blanking_keeps, visit, visit]
      refine (inStep_visit blind subject quiet.2.1).bind fun first image subject => ?_
      cases isText : pattern.text? with
      | some text =>
          -- The pattern has kept its text.
          simp only [Option.isSome_some, if_true, visit_of_text? isText, pure_bind]
          exact .lift (sameResult_likeCondition subject negated text)
      | none =>
          -- What the pattern is compiled to is no string on either side.
          refine ((inStep_visit blind pattern quiet.2.2).and (ne_string_of_visit isText)).bind ?_
          rintro second other ⟨same, noString⟩
          rw [likeCondition_of_ne_string negated noString, likeCondition_of_ne_string negated]
          · exact .throw _
          · intro text isString
            obtain ⟨text, isString⟩ := same.eq_string isString
            exact noString text isString
  | between negated subject low high =>
      simp only [Sql.Expr.IsQuiet, Sql.Expr.parts, Sql.Part.every_cons,
        Sql.Part.every_append] at quiet
      rw [Sql.Expr.rewritten, visit, visit]
      exact (inStep_visit blind subject quiet.2.1).bind fun _ _ subject =>
        (inStep_visit blind low quiet.2.2.1).bind fun _ _ low =>
          (inStep_visit blind high quiet.2.2.2).bind fun _ _ high =>
            .pure (sameButTexts_negatedIf (sameButTexts_rangeFilter subject low high) negated)
  | inList negated subject items =>
      simp only [Sql.Expr.IsQuiet, Sql.Expr.parts, Sql.Part.every_cons, Sql.Part.every_append,
        Sql.Expr.listParts_eq, Sql.Part.every_flatMap] at quiet
      rw [Sql.Expr.rewritten, visit, visit]
      exact (inStep_visit blind subject quiet.2.1).bind fun _ _ subject =>
        (inStep_visitAll blind items quiet.2.2).bind fun _ _ items =>
          .pure (.inList subject items negated)
  | isNull negated subject =>
      simp only [Sql.Expr.IsQuiet, Sql.Expr.parts, Sql.Part.every_cons] at quiet
      rw [Sql.Expr.rewritten, visit, visit]
      exact (inStep_visit blind subject quiet.2).bind fun _ _ subject =>
        .lift (sameResult_nullFilter subject negated)
  | call name args distinct star =>
      simp only [Sql.Expr.IsQuiet, Sql.Expr.parts, Sql.Part.every_cons,
        Sql.Expr.listParts_eq, Sql.Part.every_flatMap] at quiet
      have count : (Sql.Expr.listRewritten Sql.blanking args).length = args.length := by
        rw [Sql.Expr.listRewritten_eq_map, List.length_map]
      rw [Sql.Expr.rewritten, Sql.blanking_function, visit, visit, count]
      cases resolved : resolveCall mode name args.length distinct star with
      | error error => exact .throw _
      | ok entry =>
          obtain ⟨found, _, _⟩ := resolveCall_eq_ok resolved
          exact (inStep_visitAll blind args quiet.2).bind fun _ _ args =>
            .lift (sameResult_applyFunction distinct blind found args)
  | parameter => exact .throw _
  | inQuery negated subject query => exact .throw _
  | existsIn query => exact .throw _
  | subquery query => exact .throw _
  | compareAny op left query => exact .throw _
  | compareAll op left query => exact .throw _
  | case operand branches otherwise => exact .throw _

theorem inStep_visitAll (blind : mode.functions.TextBlind) (es : List Sql.Expr)
    (quiet : ∀ e ∈ es, e.IsQuiet) :
    InStep (List.Forall₂ Expr.SameButTexts) (visitAll mode es)
      (visitAll mode (Sql.Expr.listRewritten Sql.blanking es)) := by
  cases es with
  | nil => exact .pure .nil
  | cons e rest =>
      rw [List.forall_mem_cons] at quiet
      rw [Sql.Expr.listRewritten, visitAll, visitAll]
      exact (inStep_visit blind e quiet.1).bind fun _ _ first =>
        (inStep_visitAll blind rest quiet.2).bind fun _ _ others => .pure (.cons first others)

end

/-- The second conditions are the first, which are quiet, without their texts. -/
structure Conditions.Blanks (first second : Conditions) : Prop where
  inner : second.inner = first.inner.map (Sql.Expr.rewritten Sql.blanking)
  left : second.left = first.left.map fun entry => (entry.1, entry.2.rewritten Sql.blanking)
  quietInner : ∀ e ∈ first.inner, e.IsQuiet
  quietLeft : ∀ entry ∈ first.left, entry.2.IsQuiet

theorem Conditions.Blanks.none : Conditions.Blanks {} {} :=
  ⟨rfl, rfl, by simp, by simp⟩

theorem Conditions.Blanks.append {first second others images : Conditions}
    (early : first.Blanks second) (late : others.Blanks images) :
    (first.append others).Blanks (second.append images) where
  inner := by simp [Conditions.append, early.inner, late.inner]
  left := by simp [Conditions.append, early.left, late.left]
  quietInner := List.forall_mem_append.mpr ⟨early.quietInner, late.quietInner⟩
  quietLeft := List.forall_mem_append.mpr ⟨early.quietLeft, late.quietLeft⟩

section Items

variable {functions : FunctionTable} (blind : functions.TextBlind)

include blind

end Items

/-! ## Conditions, groups, order and page -/

end Compile

namespace Compiler

variable {compiler : Compiler} (blind : compiler.functions.TextBlind)

include blind

end Compiler

/-- Drops the arguments, unless they are one text. -/
def peek : List Expr → List Expr
  | [.constant (.string text)] => if text = "a" then [.string text] else []
  | _ => []

/-- The standard functions and one whose transform looks at a text. -/
def peekingFunctions : FunctionTable :=
  .register .standard (FunctionTable.scalarAs peek "PEEK" .coalesce 1)

/-- How many arguments the calls have whose values are bound. -/
def boundArguments (query : Query) : List Nat :=
  query.elements.filterMap fun
    | .bind (.call _ args) _ => some args.length
    | _ => none

/-- The statement `SELECT PEEK(shown) AS u FROM foo` with a text for `shown`. -/
def peekingReport (shown : String) : Sql.Query :=
  { distinct := false
    items := [.expr (.call "PEEK" [.literal (.string shown)] false false) (some "u")]
    sources := [⟨.table ["foo"] none, []⟩]
    condition := none
    groupBy := []
    having := none
    orderBy := []
    limit := none
    offset := none }

/-- A transform that looks at a text can make more of the difference. -/
theorem not_sameButTexts_peekingReport :
    (peekingReport "a").blanked = (peekingReport "b").blanked ∧
    ∃ catalog first second, twoTables.assemble = .ok catalog ∧
      ({ catalog, functions := peekingFunctions } : Compiler).compile (peekingReport "a") =
        .ok first ∧
      ({ catalog, functions := peekingFunctions } : Compiler).compile (peekingReport "b") =
        .ok second ∧
      ¬ first.SameButTexts second := by
  refine ⟨rfl, ?_⟩
  have checked : ∃ catalog, twoTables.assemble = .ok catalog ∧
      (∃ first, ({ catalog, functions := peekingFunctions } : Compiler).compile
        (peekingReport "a") = .ok first ∧
        boundArguments first.blanked = [1]) ∧
      ∃ second, ({ catalog, functions := peekingFunctions } : Compiler).compile
        (peekingReport "b") = .ok second ∧
        boundArguments second.blanked = [0] := by
    decide +kernel
  obtain ⟨catalog, assembled, ⟨first, compiled, kept⟩, second, compiledToo, dropped⟩ := checked
  refine ⟨catalog, first, second, assembled, compiled, compiledToo, fun same => ?_⟩
  rw [same.blanked_eq, dropped] at kept
  cases kept

end TripleTables
