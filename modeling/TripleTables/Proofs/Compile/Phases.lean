import TripleTables.Compile.Statement
import TripleTables.Proofs.Builder.Change
import TripleTables.Proofs.Compile.Alike

/-!
# The two phases of a compilation

A compilation first binds the tables of a statement and does nothing else.
Everything after that binds no table, and everything after the select list shows
nothing.  So what is proved of the changes of a builder holds of whole
compilations, with all tables bound before the first column is registered.
-/

namespace TripleTables.Compile

open TripleTables.Builder (Binds Registers Fills Settles)
open TripleTables.Graph (Expr Variable)
open TripleTables.Run (Moves)

variable {mode : Mode}

/-! ## Expressions -/

/-- A name that is given a variable means a column or, where it means none, a
result column. -/
theorem columnVariable_eq_ok {parts : Sql.ObjectName} {v : Variable} {before next : Builder}
    (ran : columnVariable mode parts before = .ok v next) :
    ∃ name, Name.ofColumnParts? parts = some name ∧
      (Builder.addColumn name mode.optionalColumns before = .ok v next ∨
        ((∃ unknown, before.resolveColumn name = .error (.unknownColumn unknown)) ∧ next = before ∧
          (mode.resolveAliases = true ∧ parts.length = 1) ∧
          before.projectionVariable? name.shortName = some v)) := by
  cases named : Name.ofColumnParts? parts with
  | none =>
      simp only [columnVariable, named] at ran
      cases ran
  | some name =>
      refine ⟨name, rfl, ?_⟩
      simp only [columnVariable, named] at ran
      rcases Builder.addColumn_spec name mode.optionalColumns before with
        ⟨error, unresolved, failed⟩ | ⟨_, column, _, _, found⟩ | ⟨place, _, _, registering⟩
      · rw [failed] at ran
        cases error with
        | unknownColumn unknown =>
            dsimp only at ran
            split at ran
            · rename_i shown
              split at shown
              · rename_i allowed
                cases ran
                simp only [Bool.and_eq_true, beq_iff_eq] at allowed
                exact .inr ⟨⟨_, unresolved⟩, rfl, allowed, shown⟩
              · contradiction
            · cases ran
        | _ => cases ran
      · rw [found] at ran
        cases ran
        exact .inl found
      · rcases Builder.registerColumn_spec place mode.optionalColumns before with
          ⟨error, otherwise, failed⟩ | ⟨_, _, _, _, _, _, _, _, _, registered⟩
        · rw [registering, failed] at ran
          cases error with
          | unknownColumn unknown => exact absurd rfl (otherwise unknown)
          | _ => cases ran
        · rw [registering, registered] at ran
          cases ran
          exact .inl (registering.trans registered)

/-- Looking a column up registers it, if anything. -/
theorem moves_columnVariable (parts : Sql.ObjectName) :
    Moves Registers (columnVariable mode parts) := by
  unfold columnVariable
  split
  · exact .throw _
  · rename_i name _
    intro builder
    have path := Builder.moves_addColumn name mode.optionalColumns builder
    simp only [Run.after] at path ⊢
    cases ran : Builder.addColumn name mode.optionalColumns builder with
    | ok v next => simpa [ran] using path
    | error error next =>
        rw [ran] at path
        cases error with
        | unknownColumn unknown =>
            -- A result column that is meant instead is read, not changed.
            dsimp only at path ⊢
            split
            · rename_i found
              split at found
              · cases found
                exact path
              · contradiction
            · rename_i found
              split at found
              · contradiction
              · cases found
                exact path
        | _ => exact path

/-- Compiling expressions registers columns and does nothing else. -/
theorem alike_moves : Alike mode mode fun _ step _ => Moves Registers step where
  functions := rfl
  aggregates := rfl
  lift _ := Run.moves_liftExcept _
  bind first next := .bind first next
  column := moves_columnVariable

theorem moves_expression (e : Sql.Expr) : Moves Registers (expression mode e) :=
  alike_moves.expression e

theorem Visits.registers {es : List Sql.Expr} {results : List Expr} {before next : Builder}
    (visits : Visits mode before es results next) :
    Relation.ReflTransGen Registers before next := by
  induction visits with
  | nil => exact .refl
  | cons first others firstIh othersIh => exact firstIh.trans othersIh
  | column given => exact (moves_columnVariable _).of_ok given
  | literal translated => exact .refl
  | nested operands ih | unary operands ih | between operands ih | inList operands ih => exact ih
  | binary translated operands ih => exact ih
  | like operands matched ih => exact ih
  | isNull operands tested ih => exact ih
  | call resolved visited applied ih => exact ih

theorem settles_expression (e : Sql.Expr) : Moves Settles (expression mode e) :=
  (moves_expression e).mono fun _ _ => .column

theorem fills_expression (e : Sql.Expr) : Moves Fills (expression mode e) :=
  (moves_expression e).mono fun _ _ => .column

/-! ## Tables -/

theorem moves_bindSource (optional : Bool) (source : Sql.Source) :
    Moves Binds (bindSource optional source) := by
  cases source with
  | table parts asName =>
      exact .bind (Run.moves_liftExcept _) fun _ =>
        .bind (Run.moves_ofBuild (Builder.moves_addTable _ _ _)) fun _ => .pure _
  | derived query asName => exact .throw _

/-- A source that is bound gets a binding behind all others. -/
theorem bindSource_eq_ok {optional : Bool} {source : Sql.Source} {id : Nat}
    {before next : Builder} (ran : bindSource optional source before = .ok id next) :
    ∃ table tableAlias triples, id = before.bindings.length ∧
      next = before.withTable table tableAlias optional triples := by
  cases source with
  | derived query asName => cases ran
  | table parts asName =>
      obtain ⟨name, middle, named, ran⟩ := Run.bind_eq_ok_iff.mp ran
      obtain ⟨_, rfl⟩ := Run.liftExcept_eq_ok_iff.mp named
      obtain ⟨binding, last, added, done⟩ := Run.bind_eq_ok_iff.mp ran
      cases done
      have added := Run.ofBuild_eq_ok_iff.mp added
      rcases Builder.addTable_spec name asName optional before with
        ⟨error, _, failed⟩ | ⟨table, triples, _, _, _, bound⟩
      · rw [failed] at added
        cases added
      · rw [bound] at added
        cases added
        exact ⟨table, _, triples, rfl, rfl⟩

theorem moves_bindJoin (join : Sql.Join) : Moves Binds (bindJoin join) := by
  unfold bindJoin
  split
  · exact .bind (moves_bindSource false join.source) fun _ => .pure _
  · exact .bind (moves_bindSource false join.source) fun _ => .pure _
  · exact .bind (moves_bindSource true join.source) fun _ => .pure _
  · exact .throw _

theorem moves_bindJoins (joins : List Sql.Join) : Moves Binds (bindJoins joins) := by
  induction joins with
  | nil => exact .pure _
  | cons join rest ih => exact .bind (moves_bindJoin join) fun _ => .bind ih fun _ => .pure _

theorem moves_bindSources (sources : List Sql.SourceWithJoins) :
    Moves Binds (bindSources sources) := by
  induction sources with
  | nil => exact .pure _
  | cons entry rest ih =>
      exact .bind (moves_bindSource false entry.source) fun _ =>
        .bind (moves_bindJoins entry.joins) fun _ => .bind ih fun _ => .pure _

/-! ## The other clauses -/

theorem fills_addItem (functions : FunctionTable) (position : Nat) (item : Sql.SelectItem) :
    Moves Fills (addItem functions position item) := by
  cases item with
  | wildcard => exact Run.moves_ofBuild (Builder.moves_addAllColumns none)
  | qualifiedWildcard parts =>
      exact .bind (Run.moves_liftExcept _) fun _ =>
        Run.moves_ofBuild (Builder.moves_addAllColumns _)
  | expr e asName =>
      apply Moves.bind (fills_expression e)
      intro compiled
      split
      · exact Run.moves_ofBuild (Builder.moves_addVar _ _)
      · exact .bind (Run.moves_ofBuild (Builder.moves_addComputed _ _)) fun _ => .pure _

theorem fills_addItems (functions : FunctionTable) (items : List Sql.SelectItem)
    (position : Nat) : Moves Fills (addItems functions position items) := by
  induction items generalizing position with
  | nil => exact .pure _
  | cons item rest ih => exact .bind (fills_addItem functions position item) fun _ => ih _

/-- A part outside the blocks is set. -/
theorem fills_modify {change : Builder → Builder}
    (outside : ∀ builder, Fills builder (change builder)) :
    Moves Fills (ofBuild (modify change)) :=
  Run.moves_ofBuild (Builder.moves_modify outside)

theorem settles_modify {change : Builder → Builder}
    (outside : ∀ builder, Settles builder (change builder)) :
    Moves Settles (ofBuild (modify change)) :=
  Run.moves_ofBuild (Builder.settles_modify outside)

theorem settles_orderKey (functions : FunctionTable) (e : Sql.Expr) :
    Moves Settles (orderKey functions e) := by
  apply Moves.bind .get
  intro builder
  apply Moves.bind (Run.moves_liftExcept _)
  intro found
  cases found with
  | some v => exact .pure _
  | none => exact settles_expression e

/-- An expression is compiled and put outside the blocks. -/
theorem settles_stored {change : Expr → Builder → Builder}
    (outside : ∀ result builder, Settles builder (change result builder)) (e : Sql.Expr) :
    Moves Settles (expression mode e >>= fun result => ofBuild (modify (change result))) :=
  .bind (settles_expression e) fun result => settles_modify (outside result)

theorem settles_addInnerConditions (functions : FunctionTable) (conditions : List Sql.Expr) :
    Moves Settles (addInnerConditions functions conditions) :=
  .forM (settles_stored fun _ _ => .outside _ _ _ _ _ _ _) conditions

theorem settles_addLeftConditions (functions : FunctionTable)
    (conditions : List (Nat × Sql.Expr)) :
    Moves Settles (addLeftConditions functions conditions) := by
  apply Moves.forM
  rintro ⟨id, e⟩
  exact .bind (settles_expression e) fun _ =>
    Run.moves_ofBuild (Builder.settles_addBindingFilter id _)

theorem settles_addCondition (functions : FunctionTable) (condition : Option Sql.Expr) :
    Moves Settles (addCondition functions condition) :=
  .optionForM (settles_stored fun _ _ => .outside _ _ _ _ _ _ _) condition

theorem settles_addGroupKeys (functions : FunctionTable) (keys : List Sql.Expr) :
    Moves Settles (addGroupKeys functions keys) :=
  .forM (settles_stored fun _ _ => .outside _ _ _ _ _ _ _) keys

theorem settles_addHaving (functions : FunctionTable) (condition : Option Sql.Expr) :
    Moves Settles (addHaving functions condition) :=
  .optionForM (settles_stored fun _ _ => .outside _ _ _ _ _ _ _) condition

theorem settles_addOrderKeys (functions : FunctionTable) (keys : List Sql.OrderItem) :
    Moves Settles (addOrderKeys functions keys) := by
  apply Moves.forM
  intro key
  exact .bind (settles_orderKey functions key.expr) fun _ =>
    settles_modify fun _ => .outside _ _ _ _ _ _ _

/-- What is compiled after the keys of the groups. -/
def afterGroupKeys (functions : FunctionTable) (query : Sql.Query) : Compile Unit := do
  addHaving functions query.having
  addOrderKeys functions query.orderBy
  ofBuild (Builder.setLimit query.limit)
  ofBuild (Builder.setOffset query.offset)

theorem settles_afterGroupKeys (functions : FunctionTable) (query : Sql.Query) :
    Moves Settles (afterGroupKeys functions query) := by
  apply Moves.bind (settles_addHaving functions query.having)
  intro _
  apply Moves.bind (settles_addOrderKeys functions query.orderBy)
  intro _
  apply Moves.bind (settles_modify fun _ => .outside _ _ _ _ _ _ _)
  intro _
  exact settles_modify fun _ => .outside _ _ _ _ _ _ _

/-- What is compiled after the conditions on rows. -/
def afterConditions (functions : FunctionTable) (query : Sql.Query) : Compile Unit := do
  addGroupKeys functions query.groupBy
  addHaving functions query.having
  addOrderKeys functions query.orderBy
  ofBuild (Builder.setLimit query.limit)
  ofBuild (Builder.setOffset query.offset)

theorem settles_afterConditions (functions : FunctionTable) (query : Sql.Query) :
    Moves Settles (afterConditions functions query) :=
  .bind (settles_addGroupKeys functions query.groupBy) fun _ =>
    settles_afterGroupKeys functions query

/-- What is compiled after the tables. -/
def afterSources (functions : FunctionTable) (query : Sql.Query) (conditions : Conditions) :
    Compile Unit := do
  ofBuild (Builder.setDistinct query.distinct)
  addItems functions 1 query.items
  addInnerConditions functions conditions.inner
  addLeftConditions functions conditions.left
  addCondition functions query.condition
  afterConditions functions query

/-- What is compiled after the select list. -/
def afterItems (functions : FunctionTable) (query : Sql.Query) (conditions : Conditions) :
    Compile Unit := do
  addInnerConditions functions conditions.inner
  addLeftConditions functions conditions.left
  addCondition functions query.condition
  afterConditions functions query

theorem afterSources_eq (functions : FunctionTable) (query : Sql.Query)
    (conditions : Conditions) :
    afterSources functions query conditions =
      ofBuild (Builder.setDistinct query.distinct) >>= fun _ =>
        addItems functions 1 query.items >>= fun _ => afterItems functions query conditions :=
  rfl

/-- Behind the select list nothing is shown and no variable is bound. -/
theorem settles_afterItems (functions : FunctionTable) (query : Sql.Query)
    (conditions : Conditions) : Moves Settles (afterItems functions query conditions) := by
  apply Moves.bind (settles_addInnerConditions functions conditions.inner)
  intro _
  apply Moves.bind (settles_addLeftConditions functions conditions.left)
  intro _
  apply Moves.bind (settles_addCondition functions query.condition)
  intro _
  exact settles_afterConditions functions query

theorem fills_afterItems (functions : FunctionTable) (query : Sql.Query)
    (conditions : Conditions) : Moves Fills (afterItems functions query conditions) :=
  (settles_afterItems functions query conditions).mono fun _ _ settles => settles.fills

theorem fills_afterSources (functions : FunctionTable) (query : Sql.Query)
    (conditions : Conditions) : Moves Fills (afterSources functions query conditions) := by
  rw [afterSources_eq]
  apply Moves.bind (fills_modify fun _ => .outside _ _ _ _ _ _ _ _)
  intro _
  apply Moves.bind (fills_addItems functions query.items 1)
  intro _
  exact fills_afterItems functions query conditions

/-- A compilation binds its tables before all else. -/
theorem clauses_eq_phases (functions : FunctionTable) (query : Sql.Query) :
    clauses functions query =
      if query.sources.isEmpty then throw (.query .emptyFrom)
      else bindSources query.sources >>= afterSources functions query := by
  unfold clauses
  split
  · rfl
  · rfl

/-- A compilation that succeeds has bound its tables before all else. -/
theorem exists_of_clauses {functions : FunctionTable} {query : Sql.Query} {start last : Builder}
    (ran : clauses functions query start = .ok () last) :
    ∃ conditions middle, bindSources query.sources start = .ok conditions middle ∧
      afterSources functions query conditions middle = .ok () last := by
  rw [clauses_eq_phases] at ran
  cases empty : query.sources.isEmpty with
  | true => simp [empty] at ran
  | false =>
      rw [empty, if_neg (by simp), Run.bind_eq_ok_iff] at ran
      exact ran

theorem phases_of_clauses {functions : FunctionTable} {query : Sql.Query} {start last : Builder}
    (ran : clauses functions query start = .ok () last) :
    ∃ middle, Relation.ReflTransGen Binds start middle ∧
      Relation.ReflTransGen Fills middle last := by
  obtain ⟨conditions, middle, bound, filled⟩ := exists_of_clauses ran
  exact ⟨middle, (moves_bindSources query.sources).of_ok bound,
    (fills_afterSources functions query conditions).of_ok filled⟩

end TripleTables.Compile
