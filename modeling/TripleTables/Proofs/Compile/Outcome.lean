import TripleTables.Proofs.Compile.Phases

/-!
# Outcomes of compilations

What a compilation gives in the end does not depend on the builder that is left
behind where it fails.  `Run.outcome` forgets that builder, which makes steps
commute that only differ there.

An operation on the image of a builder does what it does on the builder, if the
image answers as the builder does (`Builder.Reflects`).

Two facts about outcomes are proved for every part of a compilation.  No part
but the one that adds a filter reads or changes the filters gathered so far
(`Blind`).  And the clause in which an expression stands shows only in the
errors: an expression of a join's condition has the outcome of the same
expression among the conditions on rows, up to the name of the clause.
-/

namespace TripleTables

open TripleTables.Graph

namespace Run

variable {ε σ α β : Type}

/-! ## Forgetting the state after an error -/

/-- The outcome of a step: its value and the state after it, or its error. -/
def outcome (step : EStateM ε σ α) : StateT σ (Except ε) α := fun before =>
  match step before with
  | .ok value next => .ok (value, next)
  | .error error _ => .error error

@[simp]
theorem outcome_pure (value : α) :
    outcome (pure value : EStateM ε σ α) = pure value :=
  rfl

@[simp]
theorem outcome_throw (error : ε) :
    outcome (throw error : EStateM ε σ α) = throw error :=
  rfl

@[simp]
theorem outcome_bind (first : EStateM ε σ α) (next : α → EStateM ε σ β) :
    outcome (first >>= next) = outcome first >>= fun value => outcome (next value) := by
  funext before
  simp only [outcome, bind, EStateM.bind, StateT.bind, Except.bind]
  cases first before with
  | ok value middle => rfl
  | error error middle => rfl

theorem outcome_of_ok {step : EStateM ε σ α} {before next : σ} {value : α}
    (ran : step before = .ok value next) : outcome step before = .ok (value, next) := by
  simp [outcome, ran]

theorem outcome_of_error {step : EStateM ε σ α} {before next : σ} {error : ε}
    (ran : step before = .error error next) : outcome step before = .error error := by
  simp [outcome, ran]

theorem ok_of_outcome {step : EStateM ε σ α} {before : σ} {result : α × σ}
    (ran : outcome step before = .ok result) : step before = .ok result.1 result.2 := by
  simp only [outcome] at ran
  split at ran
  · rename_i stepped
    cases ran
    exact stepped
  · cases ran

/-- A step of construction fails as a part of a compilation with the error that
it fails with by itself. -/
theorem outcome_ofBuild (step : Build α) (before : Builder) :
    outcome (Compile.ofBuild step) before = (outcome step before).mapError .query := by
  simp only [outcome, Compile.ofBuild]
  cases step before with
  | ok value next => rfl
  | error error next => rfl

/-! ## Renaming errors -/

/-- The step with another name for each error. -/
def renamed (rename : ε → ε) (step : StateT σ (Except ε) α) : StateT σ (Except ε) α :=
  fun before => (step before).mapError rename

@[simp]
theorem renamed_throw (rename : ε → ε) (error : ε) :
    renamed rename (throw error : StateT σ (Except ε) α) = throw (rename error) :=
  rfl

@[simp]
theorem renamed_bind (rename : ε → ε) (first : StateT σ (Except ε) α)
    (next : α → StateT σ (Except ε) β) :
    renamed rename (first >>= next) =
      renamed rename first >>= fun value => renamed rename (next value) := by
  funext before
  simp only [renamed, bind, StateT.bind, Except.bind]
  cases first before with
  | ok result => rfl
  | error error => rfl

end Run

/-! ## Steps on images of builders -/

namespace Run

variable {ε σ α β : Type} {image : σ → σ}

/-- The second step does on the image of a state what the first does on the
state. -/
def Mirrors (image : σ → σ) (step other : StateT σ (Except ε) α) : Prop :=
  ∀ before, other (image before) = (fun result => (result.1, image result.2)) <$> step before

theorem Mirrors.bind {step other : StateT σ (Except ε) α}
    {next following : α → StateT σ (Except ε) β} (early : Mirrors image step other)
    (late : ∀ value, Mirrors image (next value) (following value)) :
    Mirrors image (step >>= next) (other >>= following) := by
  intro before
  have same := early before
  simp only [Bind.bind, StateT.bind, Except.bind]
  rw [same]
  cases step before with
  | error error => rfl
  | ok result => exact late result.1 result.2

end Run

namespace Builder

/-- Images of builders answer as the builders do, and what changes tables, columns
and result columns without expressions goes through to the builder. -/
structure Reflects (image : Builder → Builder) (onBlocks : List Block → List Block) : Prop where
  resolveTable : ∀ builder name, (image builder).resolveTable name = builder.resolveTable name
  bindings : ∀ builder, (image builder).bindings = builder.bindings
  columns : ∀ builder, (image builder).columns = builder.columns
  columnIndex : ∀ builder, (image builder).columnIndex = builder.columnIndex
  displayNames : ∀ builder, (image builder).displayNames = builder.displayNames
  nextBinding : ∀ builder table tableAlias optional,
    (image builder).nextBinding table tableAlias optional =
      builder.nextBinding table tableAlias optional
  withTable : ∀ builder table tableAlias optional triples,
    (image builder).withTable table tableAlias optional triples =
      image (builder.withTable table tableAlias optional triples)
  placeColumn : ∀ builder binding nullable optional triple,
    (image builder).placeColumn binding nullable optional triple =
      (builder.placeColumn binding nullable optional triple).map fun placed =>
        (onBlocks placed.1, placed.2)
  withColumn : ∀ builder place mentioned blocks,
    (image builder).withColumn place mentioned (onBlocks blocks) =
      image (builder.withColumn place mentioned blocks)
  withProjection : ∀ builder projection, projection.expression = none →
    (image builder).withProjection projection = image (builder.withProjection projection)

/-- After a value that both find, a builder and its image stay so. -/
theorem mirrored_liftExcept_bind {α β : Type} (image : Builder → Builder)
    (result : Except QueryError α) {next other : α → Build β} {builder : Builder}
    (same : ∀ value, Run.outcome (other value) (image builder) =
      (fun result => (result.1, image result.2)) <$> Run.outcome (next value) builder) :
    Run.outcome (liftExcept result >>= other) (image builder) =
      (fun result => (result.1, image result.2)) <$>
        Run.outcome (liftExcept result >>= next) builder := by
  cases result with
  | ok value => exact same value
  | error error => rfl

namespace Reflects

variable {image : Builder → Builder} {onBlocks : List Block → List Block}

theorem addTable (reflects : Reflects image onBlocks) (name : Name) (asName : Option String)
    (optional : Bool) :
    Run.Mirrors image (Run.outcome (addTable name asName optional))
      (Run.outcome (addTable name asName optional)) := by
  intro builder
  show Run.outcome (liftExcept ((image builder).resolveTable name) >>= _) (image builder) =
    _ <$> Run.outcome (liftExcept (builder.resolveTable name) >>= _) builder
  rw [reflects.resolveTable]
  apply mirrored_liftExcept_bind
  intro table
  have sameTaken : (image builder).bindings.any
      (fun binding => binding.tableAlias == asName.getD table.name.shortName) =
        builder.bindings.any
          (fun binding => binding.tableAlias == asName.getD table.name.shortName) := by
    rw [reflects.bindings]
  cases taken : builder.bindings.any
      (fun binding => binding.tableAlias == asName.getD table.name.shortName) with
  | true =>
      simp only [sameTaken, taken, if_true, Run.throw_bind]
      rfl
  | false =>
      simp only [sameTaken, taken, Bool.false_eq_true, if_false]
      apply mirrored_liftExcept_bind
      intro triples
      have bound := Run.outcome_of_ok
        (lookUp_withTable builder table (asName.getD table.name.shortName) optional triples)
      refine (Run.outcome_of_ok (lookUp_withTable _ table _ optional triples)).trans ?_
      rw [reflects.nextBinding, reflects.withTable]
      exact (congrArg (Functor.map fun result => (result.1, image result.2)) bound).symm

theorem registerColumn (reflects : Reflects image onBlocks) (place : Nat × Nat)
    (optional : Bool) :
    Run.Mirrors image (Run.outcome (registerColumn place optional))
      (Run.outcome (registerColumn place optional)) := by
  intro builder
  have found : (image builder).bindingAt place.1 = builder.bindingAt place.1 := by
    rw [bindingAt, reflects.bindings, bindingAt]
  show Run.outcome (liftExcept ((image builder).bindingAt place.1) >>= _) (image builder) =
    _ <$> Run.outcome (liftExcept (builder.bindingAt place.1) >>= _) builder
  rw [found]
  apply mirrored_liftExcept_bind
  intro binding
  apply mirrored_liftExcept_bind
  intro column
  apply mirrored_liftExcept_bind
  intro triple
  rw [reflects.placeColumn]
  cases builder.placeColumn binding column.nullable optional triple with
  | error error => rfl
  | ok placed =>
      show Except.ok (binding.columnVariable column, (image builder).withColumn place
        (mention binding column placed.2) (onBlocks placed.1)) = _
      rw [reflects.withColumn]
      rfl

theorem addColumn (reflects : Reflects image onBlocks) (name : Name) (optional : Bool) :
    Run.Mirrors image (Run.outcome (addColumn name optional))
      (Run.outcome (addColumn name optional)) := by
  intro builder
  have resolved : (image builder).resolveColumn name = builder.resolveColumn name := by
    rw [resolveColumn, candidates, reflects.bindings, resolveColumn, candidates]
  show Run.outcome (liftExcept ((image builder).resolveColumn name) >>= _) (image builder) =
    _ <$> Run.outcome (liftExcept (builder.resolveColumn name) >>= _) builder
  rw [resolved]
  apply mirrored_liftExcept_bind
  intro place
  have known : (image builder).registered? place = builder.registered? place := by
    rw [registered?, reflects.columnIndex, reflects.columns, registered?]
  rw [known]
  cases builder.registered? place with
  | some column => rfl
  | none => exact reflects.registerColumn place optional builder

theorem addVar (reflects : Reflects image onBlocks) (v : Variable) (displayName : Option String) :
    Run.Mirrors image (Run.outcome (addVar v displayName))
      (Run.outcome (addVar v displayName)) := by
  intro builder
  have chosen : (image builder).chooseDisplayName v displayName =
      builder.chooseDisplayName v displayName := by
    have candidates : (image builder).displayCandidates v = builder.displayCandidates v := by
      rw [displayCandidates, columnOf, reflects.columns, displayCandidates, columnOf]
    cases displayName <;>
      simp only [chooseDisplayName, reflects.displayNames, candidates]
  show Run.outcome (liftExcept ((image builder).chooseDisplayName v displayName) >>= _)
    (image builder) = _ <$> Run.outcome (liftExcept (builder.chooseDisplayName v displayName) >>= _)
      builder
  rw [chosen]
  apply mirrored_liftExcept_bind
  intro name
  rw [reflects.columns]
  exact congrArg (fun next => Except.ok (PUnit.unit, next)) (reflects.withProjection builder _ rfl)

theorem addEach (reflects : Reflects image onBlocks) (names : List Name) :
    Run.Mirrors image (Run.outcome (addEach names)) (Run.outcome (addEach names)) := by
  induction names with
  | nil => exact fun _ => rfl
  | cons name rest ih =>
      rw [Builder.addEach, Run.outcome_bind]
      apply Run.Mirrors.bind (reflects.addColumn name false)
      intro v
      rw [Run.outcome_bind]
      exact .bind (reflects.addVar v none) fun _ => ih

theorem addAllColumns (reflects : Reflects image onBlocks) (pattern : Option Name) :
    Run.Mirrors image (Run.outcome (addAllColumns pattern))
      (Run.outcome (addAllColumns pattern)) := by
  intro builder
  have targets : (image builder).starTargets pattern = builder.starTargets pattern := by
    cases pattern <;> simp only [starTargets, reflects.bindings]
  have columns : (image builder).columnsOfBinding = builder.columnsOfBinding := by
    funext name
    rw [columnsOfBinding, reflects.bindings, columnsOfBinding]
  show Run.outcome (liftExcept ((image builder).starTargets pattern) >>= _) (image builder) =
    _ <$> Run.outcome (liftExcept (builder.starTargets pattern) >>= _) builder
  rw [targets]
  apply mirrored_liftExcept_bind
  intro names
  rw [columns]
  exact reflects.addEach (names.flatMap builder.columnsOfBinding) builder

end Reflects

end Builder

/-! ## Steps that do not see the filters -/

/-- The builder with other filters. -/
def Builder.withFilters (builder : Builder) (filters : List Expr) : Builder :=
  { builder with filters }

/-- The step neither reads nor changes the filters. -/
def Blind {ε α : Type} (step : StateT Builder (Except ε) α) : Prop :=
  ∀ builder filters, step (builder.withFilters filters) =
    (fun result => (result.1, result.2.withFilters filters)) <$> step builder

namespace Blind

variable {ε α β : Type}

theorem pure (value : α) : Blind (pure value : StateT Builder (Except ε) α) :=
  fun _ _ => rfl

theorem throw (error : ε) : Blind (throw error : StateT Builder (Except ε) α) :=
  fun _ _ => rfl

theorem bind {first : StateT Builder (Except ε) α} {next : α → StateT Builder (Except ε) β}
    (firstBlind : Blind first) (nextBlind : ∀ value, Blind (next value)) :
    Blind (first >>= next) := by
  intro builder filters
  exact Run.Mirrors.bind (fun before => firstBlind before filters)
    (fun value before => nextBlind value before filters) builder

/-- A step that does not see the filters leaves them alone. -/
theorem filters_eq {step : StateT Builder (Except ε) α} (blind : Blind step)
    {builder next : Builder} {value : α} (ran : step builder = .ok (value, next)) :
    next.filters = builder.filters := by
  have same := blind builder builder.filters
  have unchanged : builder.withFilters builder.filters = builder := rfl
  rw [unchanged, ran] at same
  have states : next = next.withFilters builder.filters :=
    congrArg Prod.snd (Except.ok.inj same)
  rw [states]
  rfl

/-- A change of other parts does not see the filters. -/
theorem modify {change : Builder → Builder}
    (apart : ∀ builder filters, change (builder.withFilters filters) =
      (change builder).withFilters filters) :
    Blind (Run.outcome (modify change : EStateM ε Builder PUnit)) := by
  intro builder filters
  have changed := apart builder filters
  simp only [Run.outcome]
  show Except.ok (PUnit.unit, change (builder.withFilters filters)) = _
  rw [changed]
  rfl

theorem liftExcept (result : Except CompileError α) :
    Blind (Run.outcome (Compile.liftExcept result)) := by
  cases result with
  | ok value => exact pure value
  | error error => exact throw error

theorem ofBuild {step : Build α} (blind : Blind (Run.outcome step)) :
    Blind (Run.outcome (Compile.ofBuild step)) := by
  intro builder filters
  rw [Run.outcome_ofBuild, Run.outcome_ofBuild, blind builder filters]
  cases Run.outcome step builder with
  | ok result => rfl
  | error error => rfl

end Blind

namespace Builder

theorem reflects_withFilters (filters : List Expr) :
    Reflects (fun builder => builder.withFilters filters) id where
  resolveTable _ _ := rfl
  bindings _ := rfl
  columns _ := rfl
  columnIndex _ := rfl
  displayNames _ := rfl
  nextBinding _ _ _ _ := rfl
  withTable _ _ _ _ _ := rfl
  placeColumn builder binding nullable optional triple := by
    show builder.placeColumn binding nullable optional triple = _
    cases builder.placeColumn binding nullable optional triple <;> rfl
  withColumn _ _ _ _ := rfl
  withProjection _ _ _ := rfl

theorem blind_addTable (name : Name) (asName : Option String) (optional : Bool) :
    Blind (Run.outcome (addTable name asName optional)) :=
  fun builder filters => (reflects_withFilters filters).addTable name asName optional builder

theorem blind_addColumn (name : Name) (optional : Bool) :
    Blind (Run.outcome (addColumn name optional)) :=
  fun builder filters => (reflects_withFilters filters).addColumn name optional builder

theorem blind_addVar (v : Variable) (displayName : Option String) :
    Blind (Run.outcome (addVar v displayName)) :=
  fun builder filters => (reflects_withFilters filters).addVar v displayName builder

theorem blind_addComputed (expr : Expr) (displayName : String) :
    Blind (Run.outcome (addComputed expr displayName)) := by
  intro builder filters
  cases taken : builder.displayNames.contains displayName with
  | true =>
      have takenToo : (builder.withFilters filters).displayNames.contains displayName = true :=
        taken
      simp only [Run.outcome, addComputed, Run.get_bind_apply, taken, takenToo, if_true,
        Run.throw_bind, Run.throw_apply]
      rfl
  | false =>
      have freeToo : (builder.withFilters filters).displayNames.contains displayName = false :=
        taken
      simp only [Run.outcome, addComputed, Run.get_bind_apply, taken, freeToo,
        Bool.false_eq_true, if_false]
      cases expr.containsAggregate with
      | true => rfl
      | false => rfl

theorem blind_addAllColumns (pattern : Option Name) :
    Blind (Run.outcome (addAllColumns pattern)) :=
  fun builder filters => (reflects_withFilters filters).addAllColumns pattern builder

end Builder

namespace Compile

variable {mode : Mode}

/-- The result column that a column name may mean where no column does. -/
def shownVariable? (mode : Mode) (parts : Sql.ObjectName) (name : Name) (builder : Builder) :
    Option Variable :=
  if mode.resolveAliases && parts.length == 1 then builder.projectionVariable? name.shortName
  else none

/-- What a column name gives: the column's variable or, where no column is
meant, that of a result column. -/
theorem outcome_columnVariable {parts : Sql.ObjectName} {name : Name}
    (named : Name.ofColumnParts? parts = some name) (builder : Builder) :
    Run.outcome (columnVariable mode parts) builder =
      match Run.outcome (Builder.addColumn name mode.optionalColumns) builder with
      | .ok result => .ok result
      | .error (.unknownColumn unknown) =>
          match shownVariable? mode parts name builder with
          | some v => .ok (v, builder)
          | none => .error (.query (.unknownColumn unknown))
      | .error error => .error (.query error) := by
  simp only [columnVariable, named, Run.outcome]
  rcases Builder.addColumn_error_or_ok name mode.optionalColumns builder with
    ⟨error, failed⟩ | ⟨v, next, ran⟩
  · rw [failed]
    cases error with
    | unknownColumn unknown =>
        cases found : shownVariable? mode parts name builder with
        | some v =>
            simp only [shownVariable?] at found
            simp only [found]
        | none =>
            simp only [shownVariable?] at found
            simp only [found]
    | _ => rfl
  · rw [ran]

theorem blind_columnVariable (parts : Sql.ObjectName) :
    Blind (Run.outcome (columnVariable mode parts)) := by
  cases named : Name.ofColumnParts? parts with
  | none =>
      simp only [columnVariable, named]
      exact .throw _
  | some name =>
      intro builder filters
      have shown : shownVariable? mode parts name (builder.withFilters filters) =
          shownVariable? mode parts name builder := rfl
      rw [outcome_columnVariable named, outcome_columnVariable named,
        Builder.blind_addColumn name mode.optionalColumns builder filters, shown]
      cases Run.outcome (Builder.addColumn name mode.optionalColumns) builder with
      | ok result => rfl
      | error error =>
          cases error with
          | unknownColumn unknown =>
              cases shownVariable? mode parts name builder with
              | some v => rfl
              | none => rfl
          | _ => rfl

theorem blind_expression (e : Sql.Expr) : Blind (Run.outcome (expression mode e)) := by
  have alike : Alike mode mode fun _ step _ => Blind (Run.outcome step) :=
    { functions := rfl
      aggregates := rfl
      lift := fun _ => .liftExcept _
      bind := fun first next => by
        rw [Run.outcome_bind]
        exact .bind first next
      column := blind_columnVariable }
  exact alike.expression e

/-! ## Moving conditions to the condition on rows -/

/-- The clause in which a condition of a join stands once it is moved to the
conditions on rows; other clauses stay. -/
def movedClause (clause : String) : String :=
  if clause = "ON clause" then "WHERE clause" else clause

/-- The error once conditions of joins are moved to the conditions on rows. -/
def moved : CompileError → CompileError
  | .unsupported construct (some clause) => .unsupported construct (some (movedClause clause))
  | other => other

/-- The mode once conditions of joins are moved to the conditions on rows. -/
def Mode.moved (mode : Mode) : Mode :=
  { mode with clause := movedClause mode.clause }

theorem moved_of_unplaced {error : CompileError} (unplaced : Unplaced error) :
    moved error = error := by
  cases error with
  | unsupported construct clause =>
      cases clause with
      | none => rfl
      | some clause => exact unplaced.elim
  | _ => rfl

theorem renamed_columnVariable (parts : Sql.ObjectName) :
    Run.renamed moved (Run.outcome (columnVariable mode parts)) =
      Run.outcome (columnVariable mode.moved parts) := by
  cases named : Name.ofColumnParts? parts with
  | none =>
      simp only [columnVariable, named]
      rfl
  | some name =>
      funext builder
      have sameColumns : mode.moved.optionalColumns = mode.optionalColumns := rfl
      have shown : shownVariable? mode.moved parts name builder =
          shownVariable? mode parts name builder := rfl
      rw [Run.renamed, outcome_columnVariable named, outcome_columnVariable named, sameColumns,
        shown]
      cases Run.outcome (Builder.addColumn name mode.optionalColumns) builder with
      | ok result => rfl
      | error error =>
          cases error with
          | unknownColumn unknown =>
              cases shownVariable? mode parts name builder with
              | some v => rfl
              | none => rfl
          | _ => rfl

/-- An expression of a join's condition, moved to the conditions on rows, has
the same outcome up to the clause that an error names. -/
theorem renamed_expression (e : Sql.Expr) :
    Run.renamed moved (Run.outcome (expression mode e)) =
      Run.outcome (expression mode.moved e) := by
  have alike : Alike mode mode.moved fun _ step other =>
      Run.renamed moved (Run.outcome step) = Run.outcome other :=
    { functions := rfl
      aggregates := rfl
      lift := fun agree => by
        cases agree with
        | ok value => rfl
        | refuse construct => rfl
        | fail unplaced =>
            rw [Run.liftExcept_error, Run.outcome_throw, Run.renamed_throw,
              moved_of_unplaced unplaced]
      bind := fun first next => by
        rw [Run.outcome_bind, Run.outcome_bind, Run.renamed_bind, first]
        simp only [next]
      column := renamed_columnVariable }
  exact alike.expression e

/-! ## Neutral steps -/

/-- The step does not see the filters, and its errors are not about conditions
of joins. -/
structure Neutral {α : Type} (step : Compile α) : Prop where
  blind : Blind (Run.outcome step)
  steady : Run.renamed moved (Run.outcome step) = Run.outcome step

namespace Neutral

variable {α β : Type}

theorem pure (value : α) : Neutral (pure value : Compile α) :=
  ⟨.pure value, rfl⟩

theorem bind {first : Compile α} {next : α → Compile β} (firstNeutral : Neutral first)
    (nextNeutral : ∀ value, Neutral (next value)) : Neutral (first >>= next) := by
  constructor
  · rw [Run.outcome_bind]
    exact .bind firstNeutral.blind fun value => (nextNeutral value).blind
  · rw [Run.outcome_bind, Run.renamed_bind, firstNeutral.steady]
    simp only [(nextNeutral _).steady]

theorem forM {step : α → Compile PUnit} (stepNeutral : ∀ value, Neutral (step value))
    (values : List α) : Neutral (values.forM step) := by
  induction values with
  | nil => exact pure _
  | cons value rest ih => exact bind (stepNeutral value) fun _ => ih

theorem optionForM {step : α → Compile PUnit} (stepNeutral : ∀ value, Neutral (step value))
    (value : Option α) : Neutral (value.forM step) := by
  cases value with
  | none => exact pure _
  | some value => exact stepNeutral value

theorem steady_ofBuild (step : Build α) :
    Run.renamed moved (Run.outcome (ofBuild step)) = Run.outcome (ofBuild step) := by
  funext builder
  simp only [Run.renamed, Run.outcome, ofBuild]
  cases step builder with
  | ok value next => rfl
  | error error next => rfl

theorem ofBuild {step : Build α} (blind : Blind (Run.outcome step)) :
    Neutral (ofBuild step) :=
  ⟨.ofBuild blind, steady_ofBuild step⟩

theorem liftExcept {result : Except CompileError α}
    (unplaced : ∀ error, result = .error error → Unplaced error) :
    Neutral (liftExcept result) := by
  refine ⟨.liftExcept _, ?_⟩
  cases result with
  | ok value => rfl
  | error error =>
      rw [Run.liftExcept_error, Run.outcome_throw, Run.renamed_throw,
        moved_of_unplaced (unplaced error rfl)]

theorem expression (elsewhere : movedClause mode.clause = mode.clause) (e : Sql.Expr) :
    Neutral (expression mode e) := by
  have stays : mode.moved = mode := by
    simp only [Mode.moved, elsewhere]
  refine ⟨blind_expression e, ?_⟩
  rw [renamed_expression, stays]

end Neutral

theorem unplaced_tableName {parts : Sql.ObjectName} {error : CompileError}
    (failed : tableName parts = .error error) : Unplaced error := by
  unfold tableName at failed
  split at failed
  · contradiction
  · cases failed
    trivial

theorem neutral_bindSource (optional : Bool) (source : Sql.Source) :
    Neutral (bindSource optional source) := by
  cases source with
  | table parts asName =>
      apply Neutral.bind (.liftExcept fun _ => unplaced_tableName)
      intro name
      exact .bind (.ofBuild (Builder.blind_addTable name asName optional)) fun _ => .pure _
  | derived query asName => exact ⟨.throw _, rfl⟩

theorem neutral_addItem (functions : FunctionTable) (position : Nat) (item : Sql.SelectItem) :
    Neutral (addItem functions position item) := by
  cases item with
  | wildcard => exact .ofBuild (Builder.blind_addAllColumns none)
  | qualifiedWildcard parts =>
      apply Neutral.bind (.liftExcept fun _ => unplaced_tableName)
      intro pattern
      exact .ofBuild (Builder.blind_addAllColumns (some pattern))
  | expr e asName =>
      apply Neutral.bind (.expression rfl e)
      intro compiled
      split
      · exact .ofBuild (Builder.blind_addVar _ _)
      · exact .bind (.ofBuild (Builder.blind_addComputed _ _)) fun _ => .pure _

theorem neutral_addItems (functions : FunctionTable) (items : List Sql.SelectItem)
    (position : Nat) : Neutral (addItems functions position items) := by
  induction items generalizing position with
  | nil => exact .pure _
  | cons item rest ih => exact .bind (neutral_addItem functions position item) fun _ => ih _

theorem unplaced_orderVariable? {builder : Builder} {e : Sql.Expr} {error : CompileError}
    (failed : orderVariable? builder e = .error error) : Unplaced error := by
  unfold orderVariable? at failed
  split at failed
  · contradiction
  · rename_i position
    cases found : projectionAt builder position with
    | ok v => simp [found, Functor.map, Except.map] at failed
    | error other =>
        rw [found] at failed
        cases failed
        unfold projectionAt at found
        dsimp only at found
        split at found
        · contradiction
        · cases found
          trivial
  · contradiction

theorem neutral_orderKey (functions : FunctionTable) (e : Sql.Expr) :
    Neutral (orderKey functions e) := by
  have key : Neutral (expression
      { functions, clause := "ORDER BY clause", allowAggregates := true } e) :=
    .expression rfl e
  constructor
  · intro builder filters
    have known : orderVariable? (builder.withFilters filters) e = orderVariable? builder e := by
      unfold orderVariable?
      rfl
    show Run.outcome (liftExcept (orderVariable? (builder.withFilters filters) e) >>= _) _ = _
    rw [known]
    show _ = _ <$> Run.outcome (liftExcept (orderVariable? builder e) >>= _) builder
    cases orderVariable? builder e with
    | error error => rfl
    | ok found =>
        cases found with
        | some v => rfl
        | none => exact key.blind builder filters
  · funext builder
    show (Run.outcome (liftExcept (orderVariable? builder e) >>= _) builder).mapError moved =
      Run.outcome (liftExcept (orderVariable? builder e) >>= _) builder
    cases found : orderVariable? builder e with
    | error error =>
        show Except.error (moved error) = Except.error error
        rw [moved_of_unplaced (unplaced_orderVariable? found)]
    | ok result =>
        cases result with
        | some v => rfl
        | none => exact congrFun key.steady builder

theorem neutral_afterConditions (functions : FunctionTable) (query : Sql.Query) :
    Neutral (afterConditions functions query) := by
  apply Neutral.bind
  · apply Neutral.forM
    intro e
    exact .bind (.expression rfl e) fun _ => .ofBuild (.modify fun _ _ => rfl)
  intro _
  apply Neutral.bind
  · apply Neutral.optionForM
    intro e
    exact .bind (.expression rfl e) fun _ => .ofBuild (.modify fun _ _ => rfl)
  intro _
  apply Neutral.bind
  · apply Neutral.forM
    intro key
    exact .bind (neutral_orderKey functions key.expr) fun _ =>
      .ofBuild (.modify fun _ _ => rfl)
  intro _
  apply Neutral.bind (.ofBuild (.modify fun _ _ => rfl))
  intro _
  exact .ofBuild (.modify fun _ _ => rfl)

end Compile

/-- A compilation gives what its clauses lead to. -/
theorem Compiler.compile_eq_outcome (compiler : Compiler) (query : Sql.Query) :
    compiler.compile query =
      match Run.outcome (Compile.clauses compiler.functions query) compiler.start with
      | .ok (_, builder) => builder.build.mapError .query
      | .error error => .error error := by
  unfold Compiler.compile Run.outcome
  cases Compile.clauses compiler.functions query compiler.start with
  | ok value builder => rfl
  | error error builder => rfl

end TripleTables
