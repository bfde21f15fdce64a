import TripleTables.Proofs.Builder.Failures
import TripleTables.Proofs.Compile.Outcome
import TripleTables.Proofs.Compile.Scope

/-!
# How compilations fail

A compilation is a run of operations on a builder.  The machine for expressions
always finds the operands of an instruction on its stack, the conditions of left
joins go to bindings that exist, and every position that is kept lies inside
what it points into.  So a statement is refused for what is written in it: a
construct without a counterpart, a function that is unknown or called wrongly,
or an error that the builder gives for a name.  An error that blames a template
arises only over a catalog that has not been validated.
-/

namespace TripleTables

open TripleTables.Graph
open TripleTables.Builder (LedFrom Reachable)
open TripleTables.Run (Safe)

namespace Compile

/-- An error that says something of the statement, or blames a template of a
catalog in which some template cannot be filled. -/
def Refusal (catalog : Catalog) : CompileError → Prop
  | .unreadable _ => False
  | .torn _ => False
  | .unsupported _ _ => True
  | .unsupportedFunction _ => True
  | .argumentCount _ _ _ => True
  | .emptyExpression => False
  | .query error => error = .emptyFrom ∨ Builder.Refusal catalog error

theorem refusal_of_unplaced {catalog : Catalog} {error : CompileError}
    (unplaced : Unplaced error) : Refusal catalog error := by
  cases error with
  | unsupported construct clause => trivial
  | unsupportedFunction name => trivial
  | argumentCount function expected actual => trivial
  | unreadable error => exact unplaced
  | torn place => exact unplaced
  | emptyExpression => exact unplaced
  | query error => exact unplaced.elim

theorem safe_of_unplaced {catalog : Catalog} {α : Type} {invariant : Builder → Prop}
    {result : Except CompileError α} (unplaced : ∀ error, result = .error error → Unplaced error) :
    Safe invariant (Refusal catalog) (liftExcept result) :=
  Run.safe_liftExcept fun error failed => refusal_of_unplaced (unplaced error failed)

section Safe

variable {catalog : Catalog} {start : Builder} (reachable : Reachable catalog start)
variable {mode : Mode} {count : Nat}
include reachable

/-! ## Expressions -/

theorem safe_ofBuild {α : Type} {step : Build α}
    (safe : Reachable catalog start → Safe (LedFrom start count) (Builder.Refusal catalog) step) :
    Safe (LedFrom start count) (Refusal catalog) (ofBuild step) :=
  Run.safe_ofBuild (fun _ => .inr) (safe reachable)

theorem safe_columnVariable (parts : Sql.ObjectName) :
    Safe (LedFrom start count) (Refusal catalog) (columnVariable mode parts) := by
  unfold columnVariable
  split
  · exact .throw trivial
  · rename_i name _
    intro builder led
    have outcome := Builder.safe_addColumn reachable name mode.optionalColumns builder led
    simp only [Run.after] at outcome ⊢
    cases ran : Builder.addColumn name mode.optionalColumns builder with
    | ok v next =>
        rw [ran] at outcome
        refine ⟨outcome.1, ?_⟩
        rintro _ _ ⟨⟩
    | error error next =>
        rw [ran] at outcome
        have refused : Refusal catalog (.query error) := .inr (outcome.2 error next rfl)
        cases error with
        | unknownColumn unknown =>
            -- A result column may be meant instead.
            dsimp only at outcome ⊢
            generalize (if mode.resolveAliases && parts.length == 1 then
              next.projectionVariable? name.shortName else none) = found
            cases found with
            | some v =>
                refine ⟨outcome.1, ?_⟩
                rintro _ _ ⟨⟩
            | none =>
                refine ⟨outcome.1, ?_⟩
                rintro _ _ ⟨⟩
                exact refused
        | _ =>
            refine ⟨outcome.1, ?_⟩
            rintro _ _ ⟨⟩
            exact refused

/-- What an expression is put together from fails with refusals only. -/
theorem alike_safe : Alike mode mode fun _ step _ =>
    Safe (LedFrom start count) (Refusal catalog) step where
  functions := rfl
  aggregates := rfl
  lift agree := by
    cases agree with
    | ok value => exact .pure value
    | refuse construct => exact .throw trivial
    | fail unplaced => exact .throw (refusal_of_unplaced unplaced)
  bind first next := .bind first next
  column := safe_columnVariable reachable

theorem safe_expression (e : Sql.Expr) :
    Safe (LedFrom start count) (Refusal catalog) (expression mode e) :=
  (alike_safe reachable).expression e

/-! ## Tables -/

theorem safe_bindSource (optional : Bool) (source : Sql.Source) :
    Safe (LedFrom start count) (Refusal catalog) (bindSource optional source) := by
  cases source with
  | table parts asName =>
      exact .bind (safe_of_unplaced fun _ => unplaced_tableName) fun name =>
        .bind (safe_ofBuild reachable fun known => Builder.safe_addTable known name asName optional)
          fun _ => .pure _
  | derived query asName => exact .throw trivial

theorem safe_bindJoin (join : Sql.Join) :
    Safe (LedFrom start count) (Refusal catalog) (bindJoin join) := by
  unfold bindJoin
  split
  · exact .bind (safe_bindSource reachable false join.source) fun _ => .pure _
  · exact .bind (safe_bindSource reachable false join.source) fun _ => .pure _
  · exact .bind (safe_bindSource reachable true join.source) fun _ => .pure _
  · exact .throw trivial

theorem safe_bindJoins (joins : List Sql.Join) :
    Safe (LedFrom start count) (Refusal catalog) (bindJoins joins) := by
  induction joins with
  | nil => exact .pure _
  | cons join rest ih =>
      exact .bind (safe_bindJoin reachable join) fun _ => .bind ih fun _ => .pure _

theorem safe_bindSources (sources : List Sql.SourceWithJoins) :
    Safe (LedFrom start count) (Refusal catalog) (bindSources sources) := by
  induction sources with
  | nil => exact .pure _
  | cons entry rest ih =>
      exact .bind (safe_bindSource reachable false entry.source) fun _ =>
        .bind (safe_bindJoins reachable entry.joins) fun _ => .bind ih fun _ => .pure _

/-! ## The other clauses -/

theorem safe_addItem (functions : FunctionTable) (position : Nat) (item : Sql.SelectItem) :
    Safe (LedFrom start count) (Refusal catalog) (addItem functions position item) := by
  cases item with
  | wildcard => exact safe_ofBuild reachable fun known => Builder.safe_addAllColumns known none
  | qualifiedWildcard parts =>
      exact .bind (safe_of_unplaced fun _ => unplaced_tableName) fun pattern =>
        safe_ofBuild reachable fun known => Builder.safe_addAllColumns known (some pattern)
  | expr e asName =>
      apply Safe.bind (safe_expression reachable e)
      intro compiled
      split
      · exact safe_ofBuild reachable fun known => Builder.safe_addVar known _ asName
      · exact .bind (safe_ofBuild reachable fun known => Builder.safe_addComputed known compiled _)
          fun _ => .pure _

theorem safe_addItems (functions : FunctionTable) (items : List Sql.SelectItem) (position : Nat) :
    Safe (LedFrom start count) (Refusal catalog) (addItems functions position items) := by
  induction items generalizing position with
  | nil => exact .pure _
  | cons item rest ih =>
      exact .bind (safe_addItem reachable functions position item) fun _ => ih _

/-- A step of construction that cannot fail is safe if it is an operation. -/
theorem safe_operation (operation : Builder.Operation)
    (succeeds : ∀ builder error next, operation.run builder ≠ .error error next) :
    Safe (LedFrom start count) (Refusal catalog) (ofBuild operation.run) := by
  apply safe_ofBuild reachable
  intro known
  apply Builder.safe_of_operation known operation fun _ => rfl
  intro builder error next _ _ failed
  exact (succeeds builder error next failed).elim

theorem safe_addFilter (condition : Expr) :
    Safe (LedFrom start count) (Refusal catalog) (ofBuild (Builder.addFilter condition)) :=
  safe_operation reachable (.addFilter condition) (by rintro _ _ _ ⟨⟩)

theorem safe_orderKey (functions : FunctionTable) (e : Sql.Expr) :
    Safe (LedFrom start count) (Refusal catalog) (orderKey functions e) := by
  apply Safe.bind .get
  intro builder
  apply Safe.bind (safe_of_unplaced fun _ => unplaced_orderVariable?)
  intro found
  cases found with
  | some v => exact .pure _
  | none => exact safe_expression reachable e

theorem safe_afterConditions (functions : FunctionTable) (query : Sql.Query) :
    Safe (LedFrom start count) (Refusal catalog) (afterConditions functions query) := by
  apply Safe.bind
  · apply Safe.forM
    intro e _
    exact .bind (safe_expression reachable e) fun key =>
      safe_operation reachable (.addGroupBy key) (by rintro _ _ _ ⟨⟩)
  intro _
  apply Safe.bind
  · apply Safe.optionForM
    intro e
    exact .bind (safe_expression reachable e) fun condition =>
      safe_operation reachable (.addHaving condition) (by rintro _ _ _ ⟨⟩)
  intro _
  apply Safe.bind
  · apply Safe.forM
    intro key _
    exact .bind (safe_orderKey reachable functions key.expr) fun e =>
      safe_operation reachable (.addOrderBy e key.ascending) (by rintro _ _ _ ⟨⟩)
  intro _
  apply Safe.bind (safe_operation reachable (.setLimit query.limit) (by rintro _ _ _ ⟨⟩))
  intro _
  exact safe_operation reachable (.setOffset query.offset) (by rintro _ _ _ ⟨⟩)

/-- What follows the tables fails with refusals only, if the conditions of the
left joins go to bindings that exist. -/
theorem safe_afterSources (functions : FunctionTable) (query : Sql.Query) (conditions : Conditions)
    (addressed : ∀ entry ∈ conditions.left, entry.1 < count) :
    Safe (LedFrom start count) (Refusal catalog) (afterSources functions query conditions) := by
  apply Safe.bind (safe_operation reachable (.setDistinct query.distinct) (by rintro _ _ _ ⟨⟩))
  intro _
  apply Safe.bind (safe_addItems reachable functions query.items 1)
  intro _
  apply Safe.bind
  · apply Safe.forM
    intro e _
    exact .bind (safe_expression reachable e) fun _ => safe_addFilter reachable _
  intro _
  apply Safe.bind
  · apply Safe.forM
    intro entry member
    exact .bind (safe_expression reachable entry.2) fun condition =>
      safe_ofBuild reachable fun known =>
        Builder.safe_addBindingFilter known (addressed entry member) condition
  intro _
  apply Safe.bind
  · apply Safe.optionForM
    intro e
    exact .bind (safe_expression reachable e) fun _ => safe_addFilter reachable _
  intro _
  exact safe_afterConditions reachable functions query

end Safe

/-! ## Conditions of left joins -/

/-- The conditions of left joins go to bindings that exist after the sources
are bound, and no binding is lost. -/
structure Addresses (before next : Builder) (conditions : Conditions) : Prop where
  grows : before.bindings.length ≤ next.bindings.length
  left : ∀ entry ∈ conditions.left, entry.1 < next.bindings.length

theorem Addresses.append {before middle next : Builder} {conditions further : Conditions}
    (first : Addresses before middle conditions) (second : Addresses middle next further) :
    Addresses before next (conditions.append further) where
  grows := Nat.le_trans first.grows second.grows
  left entry member := by
    rcases List.mem_append.mp member with early | late
    · exact Nat.lt_of_lt_of_le (first.left entry early) second.grows
    · exact second.left entry late

variable {before next : Builder}

theorem length_of_bindSource {optional : Bool} {source : Sql.Source} {id : Nat}
    (ran : bindSource optional source before = .ok id next) :
    id = before.bindings.length ∧ next.bindings.length = before.bindings.length + 1 := by
  obtain ⟨table, tableAlias, triples, isLast, rfl⟩ := bindSource_eq_ok ran
  exact ⟨isLast, by simp [Builder.withTable]⟩

theorem addresses_bindJoin {join : Sql.Join} {conditions : Conditions}
    (ran : bindJoin join before = .ok conditions next) : Addresses before next conditions := by
  obtain ⟨source, rule⟩ := join
  cases rule with
  | cross =>
      obtain ⟨id, middle, bound, done⟩ := Run.bind_eq_ok_iff.mp ran
      cases done
      have grown := (length_of_bindSource bound).2
      exact ⟨by omega, by simp⟩
  | on kind condition =>
      cases kind with
      | inner =>
          obtain ⟨id, middle, bound, done⟩ := Run.bind_eq_ok_iff.mp ran
          cases done
          have grown := (length_of_bindSource bound).2
          exact ⟨by omega, by simp⟩
      | leftOuter =>
          obtain ⟨id, middle, bound, done⟩ := Run.bind_eq_ok_iff.mp ran
          cases done
          obtain ⟨isLast, grown⟩ := length_of_bindSource bound
          refine ⟨by omega, ?_⟩
          intro entry member
          obtain ⟨_, _, rfl⟩ := List.mem_map.mp member
          omega
      | rightOuter => cases ran
      | fullOuter => cases ran

theorem addresses_bindJoins {joins : List Sql.Join} {conditions : Conditions}
    (ran : bindJoins joins before = .ok conditions next) : Addresses before next conditions := by
  induction joins generalizing before conditions with
  | nil =>
      cases ran
      exact ⟨Nat.le_refl _, by simp⟩
  | cons join rest ih =>
      obtain ⟨first, middle, joinRan, ran⟩ := Run.bind_eq_ok_iff.mp ran
      obtain ⟨others, last, restRan, done⟩ := Run.bind_eq_ok_iff.mp ran
      cases done
      exact (addresses_bindJoin joinRan).append (ih restRan)

theorem addresses_bindSources {sources : List Sql.SourceWithJoins} {conditions : Conditions}
    (ran : bindSources sources before = .ok conditions next) :
    Addresses before next conditions := by
  induction sources generalizing before conditions with
  | nil =>
      cases ran
      exact ⟨Nat.le_refl _, by simp⟩
  | cons entry rest ih =>
      obtain ⟨id, opened, bound, ran⟩ := Run.bind_eq_ok_iff.mp ran
      obtain ⟨first, middle, joinsRan, ran⟩ := Run.bind_eq_ok_iff.mp ran
      obtain ⟨others, last, restRan, done⟩ := Run.bind_eq_ok_iff.mp ran
      cases done
      have grown := (length_of_bindSource bound).2
      have base : Addresses before opened {} := ⟨by omega, by simp⟩
      exact (base.append (addresses_bindJoins joinsRan)).append (ih restRan)

/-! ## Statements -/

/-- A compilation is a run of operations, and fails with refusals only. -/
theorem safe_clauses {catalog : Catalog} {start : Builder} (reachable : Reachable catalog start)
    (functions : FunctionTable) (query : Sql.Query) :
    Safe (LedFrom start 0) (Refusal catalog) (clauses functions query) := by
  rw [clauses_eq_phases]
  split
  · exact .throw (.inl rfl)
  · intro before led
    have outcome := safe_bindSources reachable query.sources before led
    simp only [Run.after, Bind.bind, EStateM.bind] at outcome ⊢
    cases bound : bindSources query.sources before with
    | error error next =>
        rw [bound] at outcome
        refine ⟨outcome.1, ?_⟩
        rintro _ _ ⟨⟩
        exact outcome.2 error next rfl
    | ok conditions middle =>
        rw [bound] at outcome
        have all : LedFrom start middle.bindings.length middle :=
          ⟨outcome.1.operations, Nat.le_refl _⟩
        obtain ⟨kept, refused⟩ := safe_afterSources reachable functions query conditions
          (addresses_bindSources bound).left middle all
        exact ⟨⟨kept.operations, Nat.zero_le _⟩, refused⟩

/-- The variable at a position is that of a result column which is there. -/
theorem projectionAt_eq_ok_iff {builder : Builder} {position : Int} {v : Variable} :
    projectionAt builder position = .ok v ↔
      ∃ (index : Nat) (_ : index < builder.projections.length),
        position = index + 1 ∧ builder.projections[index].var = v := by
  by_cases early : position ≤ 0
  · constructor
    · intro found
      simp [projectionAt, early] at found
    · rintro ⟨index, _, rfl, _⟩
      omega
  · simp only [projectionAt, early, if_false]
    constructor
    · intro found
      split at found
      · rename_i projection isThere
        cases found
        obtain ⟨inside, same⟩ := List.getElem?_eq_some_iff.mp isThere
        exact ⟨(position - 1).toNat, inside, by omega, by rw [same]⟩
      · contradiction
    · rintro ⟨index, inside, rfl, rfl⟩
      have sameIndex : ((index : Int) + 1 - 1).toNat = index := by omega
      rw [sameIndex, List.getElem?_eq_getElem inside]

end Compile

/-- Every position that the index of a reachable builder gives is that of a
column which is kept. -/
theorem Builder.Consistent.lt_of_lookup {builder : Builder} (consistent : Consistent builder)
    {place : Nat × Nat} {position : Nat}
    (looked : builder.columnIndex.lookup place = some position) :
    position < builder.columns.length := by
  have indexed := consistent.lookup_eq_some_iff.mp looked
  have listed : position ∈ builder.columnIndex.map Prod.snd := List.mem_map_of_mem indexed
  rw [consistent.positions] at listed
  exact List.mem_range.mp listed

/-- A compilation fails with refusals only. -/
theorem Compiler.refusal_of_compile {compiler : Compiler} {query : Sql.Query}
    {error : CompileError} (failed : compiler.compile query = .error error) :
    Compile.Refusal compiler.catalog error := by
  have started : LedFrom compiler.start 0 compiler.start := ⟨⟨[], rfl⟩, Nat.zero_le _⟩
  have refused :=
    (Compile.safe_clauses compiler.reachable_start compiler.functions query _ started).2
  unfold Compiler.compile at failed
  split at failed
  · unfold Builder.build at failed
    split at failed
    · cases failed
      exact .inl rfl
    · cases failed
  · rename_i other next ran
    cases failed
    exact refused error next ran

/-! ## Internal errors -/

/-- The error says that the parts of a compilation do not fit together. -/
def CompileError.IsInternal : CompileError → Prop
  | .emptyExpression => True
  | .query (.unknownBinding _) => True
  | .query (.catalog _) => True
  | _ => False

/-- A compilation never fails for a reason of its own.  It is a run of
operations, and whatever the operations that have been made, the index of the
registered columns gives only positions of columns that are kept; an order key
reads a result column only at a position where there is one. -/
theorem Compiler.not_isInternal_of_compile (compiler : Compiler) (query : Sql.Query) :
    (∀ error, compiler.compile query = .error error → ¬ error.IsInternal) ∧
      (∃ operations, Run.after (Compile.clauses compiler.functions query) compiler.start =
        Builder.afterAll operations compiler.start) ∧
      (∀ operations place position,
        (Builder.afterAll operations compiler.start).columnIndex.lookup place = some position →
          position < (Builder.afterAll operations compiler.start).columns.length) ∧
      ∀ builder position v, Compile.projectionAt builder position = .ok v ↔
        ∃ (index : Nat) (_ : index < builder.projections.length),
          position = index + 1 ∧ builder.projections[index].var = v := by
  refine ⟨?_, ?_, ?_, fun _ _ _ => Compile.projectionAt_eq_ok_iff⟩
  · intro error failed isInternal
    have refused := refusal_of_compile failed
    cases error with
    | emptyExpression => exact refused
    | query error =>
        rcases refused with rfl | refused
        · exact isInternal
        · cases error with
          | unknownBinding id => exact refused
          | catalog error => exact refused
          | _ => exact isInternal
    | _ => exact isInternal
  · have started : LedFrom compiler.start 0 compiler.start := ⟨⟨[], rfl⟩, Nat.zero_le _⟩
    exact (Compile.safe_clauses compiler.reachable_start compiler.functions query _
      started).1.operations
  · intro operations place position looked
    exact (compiler.reachable_start.afterAll operations).consistent.lt_of_lookup looked

/-- Both tables are bound, and their columns are registered in the other
order. -/
def crossRegistered : List Builder.Operation :=
  [ .addTable { table := some "foo" } none false
  , .addTable { table := some "bar" } none true
  , .addColumn { column := some "y" } false
  , .addColumn { column := some "x" } false ]

/-- A join condition over a column that is not there is refused for its name,
and the second of two columns is kept at the second position. -/
theorem not_isInternal_leftJoined :
    ∃ catalog error, twoTables.assemble = .ok catalog ∧
      ({ catalog } : Compiler).compile (leftJoined (.isNull true (.column ["z"]))) =
        .error error ∧
      error = .query (.unknownColumn { column := some "z" }) ∧ ¬ error.IsInternal ∧
      (Builder.afterAll crossRegistered ({ catalog } : Compiler).start).columnIndex.lookup
        (0, 0) = some 1 ∧
      1 < (Builder.afterAll crossRegistered ({ catalog } : Compiler).start).columns.length := by
  have checked : ∃ catalog, twoTables.assemble = .ok catalog ∧
      (∃ error, ({ catalog } : Compiler).compile (leftJoined (.isNull true (.column ["z"]))) =
        .error error ∧ error = .query (.unknownColumn { column := some "z" })) ∧
      (Builder.afterAll crossRegistered ({ catalog } : Compiler).start).columnIndex.lookup
        (0, 0) = some 1 := by
    decide +kernel
  obtain ⟨catalog, assembled, ⟨error, failed, unknown⟩, looked⟩ := checked
  obtain ⟨notInternal, _, inside, _⟩ := ({ catalog } : Compiler).not_isInternal_of_compile
    (leftJoined (.isNull true (.column ["z"])))
  exact ⟨catalog, error, assembled, failed, unknown, notInternal error failed, looked,
    inside crossRegistered (0, 0) 1 looked⟩

/-! ## Templates -/

/-- The error says that a template is malformed. -/
def QueryError.BlamesTemplate : QueryError → Prop
  | .malformed _ => True
  | .catalog (.malformed _) => True
  | _ => False

/-- The error says that a template is malformed. -/
def CompileError.BlamesTemplate : CompileError → Prop
  | .query error => error.BlamesTemplate
  | _ => False

theorem Builder.Refusal.not_blamesTemplate {catalog : Catalog} {error : QueryError}
    (refused : Builder.Refusal catalog error) (fillable : catalog.Fillable) :
    ¬ error.BlamesTemplate := by
  intro blames
  cases error with
  | malformed error => exact refused fillable
  | catalog error => exact refused
  | _ => exact blames

/-- Over a validated catalog no template is found malformed, neither by a
compilation nor by any operation on a builder, whatever came before it. -/
theorem Compiler.not_blamesTemplate_of_validate {definition : CatalogDefinition}
    {catalog : Catalog} (assembled : definition.assemble = .ok catalog)
    (valid : catalog.validate = .ok ()) :
    (∀ (compiler : Compiler) (query : Sql.Query) (error : CompileError),
      compiler.catalog = catalog → compiler.compile query = .error error →
        ¬ error.BlamesTemplate) ∧
      (∀ defaultSchema useService operations (operation : Builder.Operation) error next,
        operation.run (Builder.afterAll operations { catalog, defaultSchema, useService }) =
            .error error next →
          ¬ error.BlamesTemplate) ∧
      ∀ (builder : Builder) (error : QueryError), builder.build = .error error →
        ¬ error.BlamesTemplate := by
  have fillable := CatalogDefinition.fillable_of_validate assembled valid
  refine ⟨?_, ?_, ?_⟩
  · rintro compiler query error rfl failed
    have refused := refusal_of_compile failed
    cases error with
    | query error =>
        rcases refused with rfl | refused
        · exact id
        · exact refused.not_blamesTemplate fillable
    | _ => exact id
  · intro defaultSchema useService operations operation error next failed
    have reachable : Reachable catalog
        (Builder.afterAll operations { catalog, defaultSchema, useService }) :=
      (Reachable.empty defaultSchema useService).afterAll operations
    rcases Builder.refusal_of_operation reachable failed with refused | ⟨id, rfl⟩
    · exact refused.not_blamesTemplate fillable
    · rintro ⟨⟩
  · intro builder error failed
    unfold Builder.build at failed
    split at failed
    · cases failed
      rintro ⟨⟩
    · cases failed

/-- A catalog of one table with an IRI, whose own templates are a comment and
one that the IRI fills. -/
def classified : CatalogDefinition :=
  { name := "cat"
    schemas :=
      [{ name := "s"
         tables :=
          [{ name := "foo"
             iri := some "http://e/Foo"
             templates := ["# rows of foo", "\x7bsubject\x7d a \x7bobject\x7d ."]
             columns :=
              [{ name := "x", template := "\x7bsubject\x7d <http://e/x> \x7bobject\x7d ." },
               { name := "p", nullable := true
                 template := "<http://e/foo> \x7bobject\x7d \x7bsubject\x7d" }] }] }] }

/-- A column of the table is selected. -/
def selectFrom (column : String) : Sql.Query :=
  { distinct := false
    items := [.expr (.column [column]) none]
    sources := [⟨.table ["foo"] none, []⟩]
    condition := none
    groupBy := []
    having := none
    orderBy := []
    limit := none
    offset := none }

/-- The table is bound twice under its own name, with its columns shown in
between. -/
def boundAgain (catalog : Catalog) : EStateM.Result QueryError Builder Unit :=
  (Builder.Operation.addTable { table := some "foo" } none true).run
    (Builder.afterAll [.addTable { table := some "foo" } none false, .addAllColumns none]
      { catalog })

/-- A valid catalog with all kinds of templates: a column that is not there is
refused for its name, and a second use of the table for its alias. -/
theorem not_blamesTemplate_classified :
    ∃ catalog unknown taken next, classified.assemble = .ok catalog ∧
      catalog.validate = .ok () ∧
      ({ catalog } : Compiler).compile (selectFrom "z") = .error unknown ∧
      unknown = .query (.unknownColumn { column := some "z" }) ∧ ¬ unknown.BlamesTemplate ∧
      boundAgain catalog = .error taken next ∧ taken = .duplicateAlias "foo" ∧
      ¬ taken.BlamesTemplate := by
  have checked : ∃ catalog, classified.assemble = .ok catalog ∧ catalog.validate = .ok () ∧
      (∃ error, ({ catalog } : Compiler).compile (selectFrom "z") = .error error ∧
        error = .query (.unknownColumn { column := some "z" })) ∧
      ∃ error next, boundAgain catalog = .error error next ∧ error = .duplicateAlias "foo" := by
    decide +kernel
  obtain ⟨catalog, assembled, valid, ⟨unknown, failed, named⟩, taken, next, bound, isTaken⟩ :=
    checked
  obtain ⟨compiling, operating, _⟩ := Compiler.not_blamesTemplate_of_validate assembled valid
  exact ⟨catalog, unknown, taken, next, assembled, valid, failed, named,
    compiling { catalog } (selectFrom "z") unknown rfl failed, bound, isTaken,
    operating none false _ _ taken next bound⟩

end TripleTables
