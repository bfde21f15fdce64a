import TripleTables.Proofs.Compile.WellScoped
import TripleTables.Proofs.Sql.Parts

/-!
# What group keys depend on

Rows are grouped before any aggregate is computed, so a group key should not
depend on the value of an aggregate.  A call of an aggregate in a GROUP BY clause
is refused, but a name there may mean a result column, and the result column may
show an aggregate.

`Builder.meaning?` says what a name means where result columns can be named: a
column wins, and a name of one part that means no column means the result column
that is shown under it.  A variable of a group key is always what a name in the
clause means, unless a transform of arguments brings it in, and a key that is a bare
name is exactly what the name means.  So the names of the clause decide whether groups
depend on aggregates.
-/

namespace TripleTables

open TripleTables.Graph
open Relation

/-- The variables of the result columns that show aggregates. -/
def Query.aggregateVars (query : Query) : List Variable :=
  (query.projections.filter fun projection => projection.expression.isSome).map Projection.var

/-- No group key depends on the value of an aggregate. -/
def Query.KeysAvoidAggregates (query : Query) : Prop :=
  ∀ key ∈ query.groupBy, ∀ v ∈ key.vars, v ∉ query.aggregateVars

instance (query : Query) : Decidable query.KeysAvoidAggregates :=
  inferInstanceAs (Decidable (∀ key ∈ query.groupBy, ∀ v ∈ key.vars, v ∉ query.aggregateVars))

namespace Builder

/-! ## The meaning of names -/

/-- The variable of the column at a place. -/
def variableAt? (builder : Builder) (place : Nat × Nat) : Option Variable := do
  let binding ← builder.bindings[place.1]?
  let column ← binding.table.columns[place.2]?
  return binding.columnVariable column

/-- The variable that a name means where result columns can be named. -/
def meaning? (builder : Builder) (parts : Sql.ObjectName) : Option Variable := do
  let name ← Name.ofColumnParts? parts
  match builder.resolveColumn name with
  | .ok place => builder.variableAt? place
  | .error (.unknownColumn _) =>
      if parts.length = 1 then builder.projectionVariable? name.shortName else none
  | .error _ => none

/-- What a name means is settled by the bound tables and the result columns. -/
theorem meaning?_congr {builder next : Builder} (sameBindings : next.bindings = builder.bindings)
    (sameShown : next.projections = builder.projections) (parts : Sql.ObjectName) :
    next.meaning? parts = builder.meaning? parts := by
  simp only [meaning?, resolveColumn, candidates, variableAt?, projectionVariable?, sameBindings,
    sameShown]

/-- Behind the select list, names keep their meanings. -/
theorem meaning?_of_settles {builder next : Builder} (path : ReflTransGen Settles builder next)
    (parts : Sql.ObjectName) : next.meaning? parts = builder.meaning? parts := by
  induction path with
  | refl => rfl
  | tail _ settles ih =>
      rw [meaning?_congr settles.fills.bindings_eq.2 settles.shown_eq.1, ih]

/-- The variable that is given for a column is that of its place. -/
theorem Consistent.variableAt?_of_addColumn {builder next : Builder} {name : Name}
    {optional : Bool} {v : Variable} (consistent : Consistent builder)
    (ran : addColumn name optional builder = .ok v next) :
    ∃ place, builder.resolveColumn name = .ok place ∧ builder.variableAt? place = some v := by
  rcases addColumn_spec name optional builder with
    ⟨error, _, failed⟩ | ⟨place, column, resolved, known, found⟩ | ⟨place, resolved, _, registering⟩
  · rw [failed] at ran
    cases ran
  · rw [found] at ran
    cases ran
    obtain ⟨binding, declared, inGroup, bound, inTable, rfl⟩ :=
      consistent.exists_of_registered? known
    exact ⟨place, resolved, by simp [variableAt?, bound, inTable, mention]⟩
  · rcases registerColumn_spec place optional builder with
      ⟨error, _, failed⟩ | ⟨binding, column, _, _, _, bound, inTable, _, _, registered⟩
    · rw [registering, failed] at ran
      cases ran
    · rw [registering, registered] at ran
      cases ran
      exact ⟨place, resolved, by simp [variableAt?, bound, inTable]⟩

end Builder

namespace Compile

open TripleTables.Builder (Consistent Fills Registers Settles)
open TripleTables.Run (Keeps)

variable {mode : Mode} {before next : Builder}

/-! ## Expressions -/

/-- A name is given the variable that it means. -/
theorem meaning?_of_columnVariable {parts : Sql.ObjectName} {v : Variable}
    (consistent : Consistent before) (ran : columnVariable mode parts before = .ok v next) :
    before.meaning? parts = some v := by
  obtain ⟨name, named, added | ⟨⟨unknown, unresolved⟩, rfl, ⟨_, single⟩, shown⟩⟩ :=
    columnVariable_eq_ok ran
  · obtain ⟨place, resolved, given⟩ := consistent.variableAt?_of_addColumn added
    simp [Builder.meaning?, named, resolved, given]
  · simp [Builder.meaning?, named, unresolved, single, shown]

/-- Compiling expressions changes no meanings. -/
theorem Visits.meaning?_eq {es : List Sql.Expr} {results : List Expr}
    (visits : Visits mode before es results next) (parts : Sql.ObjectName) :
    next.meaning? parts = before.meaning? parts :=
  Builder.meaning?_of_settles (visits.registers.lift id fun _ _ => Settles.column) parts

/-- The variable is what a name in one of the expressions means. -/
def NamedIn (builder : Builder) (es : List Sql.Expr) (v : Variable) : Prop :=
  ∃ parts, .expr (.column parts) ∈ es.flatMap Sql.Expr.parts ∧ builder.meaning? parts = some v

/-- The names in the operands of a node are names in the node. -/
theorem NamedIn.of_operands {builder : Builder} {operands : List Sql.Expr} {e : Sql.Expr}
    {v : Variable} (named : NamedIn builder operands v)
    (inside : operands.flatMap Sql.Expr.parts ⊆ e.parts) : NamedIn builder [e] v := by
  obtain ⟨parts, member, meant⟩ := named
  exact ⟨parts, List.mem_append_left _ (inside member), meant⟩

/-- Every variable of what is compiled is what a name in the expressions means, or
a transform has brought it in. -/
theorem Visits.named {es : List Sql.Expr} {results : List Expr}
    (visits : Visits mode before es results next) (consistent : Consistent before) :
    ∀ v ∈ results.flatMap Expr.vars,
      NamedIn before es v ∨ mode.functions.BringsIn Expr.vars v := by
  induction visits with
  | nil => simp
  | cons first others firstIh othersIh =>
      intro v member
      rw [List.flatMap_cons, List.mem_append] at member
      rcases member with early | late
      · refine (firstIh consistent v (by simpa using early)).imp_left ?_
        rintro ⟨parts, inside, meant⟩
        rw [List.flatMap_singleton] at inside
        exact ⟨parts, List.mem_append_left _ inside, meant⟩
      · have settled := Run.kept_along (fun _ _ registers kept => kept.column registers)
          first.registers consistent
        refine (othersIh settled v late).imp_left ?_
        rintro ⟨parts, inside, meant⟩
        rw [first.meaning?_eq] at meant
        exact ⟨parts, List.mem_append_right _ inside, meant⟩
  | column given =>
      rw [List.flatMap_singleton, Expr.vars, List.forall_mem_singleton]
      exact .inl ⟨_, by simp [Sql.Expr.parts], meaning?_of_columnVariable consistent given⟩
  | literal translated => simp [Expr.vars]
  | nested operands ih =>
      intro v member
      exact (ih consistent v member).imp_left (NamedIn.of_operands · (by simp [Sql.Expr.parts]))
  | binary translated operands ih =>
      intro v member
      have named := ih consistent v (by simpa [Expr.vars] using member)
      exact named.imp_left (NamedIn.of_operands · (by simp [Sql.Expr.parts]))
  | unary operands ih =>
      intro v member
      have named := ih consistent v (by simpa [vars_applyUnary] using member)
      exact named.imp_left (NamedIn.of_operands · (by simp [Sql.Expr.parts]))
  | like operands matched ih =>
      intro v member
      rw [List.flatMap_singleton, vars_of_likeCondition matched] at member
      have named := ih consistent v (List.mem_append_left _ member)
      exact named.imp_left (NamedIn.of_operands · (by simp [Sql.Expr.parts]))
  | between operands ih =>
      intro v member
      simp only [List.flatMap_singleton, vars_negatedIf, rangeFilter, Expr.vars,
        List.mem_append] at member
      simp only [List.flatMap_cons, List.flatMap_nil, List.append_nil, List.mem_append] at ih
      refine (ih consistent v ?_).imp_left (NamedIn.of_operands · (by simp [Sql.Expr.parts]))
      -- The subject stands in both comparisons.
      rcases member with (inSubject | inLow) | inSubject | inHigh
      · exact .inl inSubject
      · exact .inr (.inl inLow)
      · exact .inl inSubject
      · exact .inr (.inr inHigh)
  | inList operands ih =>
      intro v member
      rw [List.flatMap_singleton, Expr.vars, Expr.allVariables_eq_flatMap] at member
      exact (ih consistent v member).imp_left (NamedIn.of_operands · (by simp [Sql.Expr.parts]))
  | isNull operands tested ih =>
      intro v member
      rw [List.flatMap_singleton, vars_of_nullFilter tested] at member
      have named := ih consistent v (List.mem_append_left _ member)
      exact named.imp_left (NamedIn.of_operands · (by simp [Sql.Expr.parts]))
  | call resolved visited applied ih =>
      intro v member
      rw [List.flatMap_singleton] at member
      obtain ⟨found, _, _⟩ := resolveCall_eq_ok resolved
      rcases within_of_applyFunction found applied v member with inArgs | isForeign
      · exact (ih consistent v inArgs).imp_left (NamedIn.of_operands · (by simp [Sql.Expr.parts]))
      · exact .inr isForeign

/-! ## Keys -/

/-- How a group key stands to the expression that it was compiled from. -/
structure KeyOf (functions : FunctionTable) (builder : Builder) (e : Sql.Expr) (key : Expr) :
    Prop where
  /-- Every variable of the key is what a name in the expression means, or a transform
  has brought it in. -/
  named : ∀ v ∈ key.vars, NamedIn builder [e] v ∨ functions.BringsIn Expr.vars v
  /-- A bare name becomes the variable that it means. -/
  bare : ∀ parts, e = .column parts → ∃ v, key = .variable v ∧ builder.meaning? parts = some v

variable {functions : FunctionTable}

theorem KeyOf.congr {builder other : Builder} {e : Sql.Expr} {key : Expr}
    (same : ∀ parts, other.meaning? parts = builder.meaning? parts)
    (isKey : KeyOf functions builder e key) : KeyOf functions other e key := by
  constructor
  · intro v member
    refine (isKey.named v member).imp_left ?_
    rintro ⟨parts, inside, meant⟩
    exact ⟨parts, inside, by rw [same, meant]⟩
  · intro parts isName
    rw [same]
    exact isKey.bare parts isName

theorem keyOf_of_expression {e : Sql.Expr} {key : Expr} (consistent : Consistent before)
    (ran : expression mode e before = .ok key next) : KeyOf mode.functions before e key := by
  constructor
  · intro v member
    exact (visits_of_expression ran).named consistent v (by simpa using member)
  · rintro parts rfl
    rw [expression_eq_visit, visit] at ran
    obtain ⟨v, middle, given, done⟩ := Run.bind_eq_ok_iff.mp ran
    cases done
    exact ⟨v, rfl, meaning?_of_columnVariable consistent given⟩

/-! ## Clauses that leave the keys alone -/

/-- The step leaves the group keys as they are. -/
def KeepsKeys {α : Type} (keys : List Expr) (step : Compile α) : Prop :=
  Keeps (fun builder => builder.groupBy = keys) step

variable {keys : List Expr}

theorem groupBy_along {change : Builder → Builder → Prop}
    (same : ∀ before next, change before next → next.groupBy = before.groupBy)
    (path : ReflTransGen change before next) : next.groupBy = before.groupBy := by
  induction path with
  | refl => rfl
  | tail _ changed ih => exact (same _ _ changed).trans ih

theorem keepsKeys_of_moves {α : Type} {change : Builder → Builder → Prop} {step : Compile α}
    (same : ∀ before next, change before next → next.groupBy = before.groupBy)
    (moves : Run.Moves change step) : KeepsKeys keys step := by
  intro before value next given ran
  exact (groupBy_along same (moves.of_ok ran)).trans given

theorem groupBy_of_registers (before next : Builder) (registers : Registers before next) :
    next.groupBy = before.groupBy := by
  cases registers
  rfl

theorem groupBy_of_addVar {v : Variable} {displayName : Option String}
    (ran : Builder.addVar v displayName before = .ok () next) : next.groupBy = before.groupBy := by
  obtain ⟨projection, _, _, _, rfl⟩ := Builder.addVar_eq_ok ran
  rfl

theorem keepsKeys_expression (e : Sql.Expr) : KeepsKeys keys (expression mode e) :=
  keepsKeys_of_moves groupBy_of_registers (moves_expression e)

theorem keepsKeys_addAllColumns (pattern : Option Name) :
    KeepsKeys keys (ofBuild (Builder.addAllColumns pattern)) := by
  intro before _ next given ran
  have each : ∀ {name v before middle next}, before.groupBy = keys →
      Builder.addColumn name false before = .ok v middle →
      Builder.addVar v none middle = .ok () next → next.groupBy = keys := by
    intro name v before middle next given added shown
    have registering := (Builder.moves_addColumn name false).of_ok added
    rw [groupBy_of_addVar shown, groupBy_along groupBy_of_registers registering, given]
  exact Builder.keeps_addAllColumns each given (Run.ofBuild_eq_ok_iff.mp ran)

theorem keepsKeys_addItem (position : Nat) (item : Sql.SelectItem) :
    KeepsKeys keys (addItem functions position item) := by
  cases item with
  | wildcard => exact keepsKeys_addAllColumns none
  | qualifiedWildcard parts =>
      apply Keeps.bind
      · exact keepsKeys_of_moves groupBy_of_registers (Run.moves_liftExcept _)
      intro pattern
      exact keepsKeys_addAllColumns (some pattern)
  | expr e asName =>
      apply Keeps.bind (keepsKeys_expression e)
      intro compiled before _ next given ran
      split at ran
      · rw [groupBy_of_addVar (Run.ofBuild_eq_ok_iff.mp ran), given]
      · obtain ⟨v, middle, computed, done⟩ := Run.bind_eq_ok_iff.mp ran
        cases done
        obtain ⟨_, _, _, ⟨_, _, rfl⟩ | ⟨_, _, rfl⟩⟩ :=
          Builder.addComputed_eq_ok (Run.ofBuild_eq_ok_iff.mp computed)
        · exact given
        · exact given

theorem keepsKeys_addItems (position : Nat) (items : List Sql.SelectItem) :
    KeepsKeys keys (addItems functions position items) := by
  induction items generalizing position with
  | nil => exact .pure _
  | cons item rest ih => exact .bind (keepsKeys_addItem position item) fun _ => ih _

theorem keepsKeys_addLeftConditions (conditions : List (Nat × Sql.Expr)) :
    KeepsKeys keys (addLeftConditions functions conditions) := by
  apply Keeps.forM
  rintro ⟨id, e⟩ _
  apply Keeps.bind (keepsKeys_expression e)
  intro condition before _ next given ran
  rcases Builder.addBindingFilter_eq_ok (Run.ofBuild_eq_ok_iff.mp ran) with
    ⟨_, _, _, _, _, _, rfl⟩ | rfl
  · exact given
  · exact given

theorem keepsKeys_orderKey (e : Sql.Expr) : KeepsKeys keys (orderKey functions e) := by
  apply Keeps.bind (keepsKeys_of_moves groupBy_of_registers .get)
  intro builder
  apply Keeps.bind
  · exact keepsKeys_of_moves groupBy_of_registers (Run.moves_liftExcept _)
  intro found
  cases found with
  | some v => exact .pure _
  | none => exact keepsKeys_expression e

/-! ## The clause of the keys -/

/-- The keys are compiled one by one and put behind those that are there. -/
theorem forall₂_of_addGroupKeys {es : List Sql.Expr} (consistent : Consistent before)
    (ran : addGroupKeys functions es before = .ok () next) :
    ∃ compiled, next.groupBy = before.groupBy ++ compiled ∧
      List.Forall₂ (KeyOf functions before) es compiled := by
  induction es generalizing before with
  | nil =>
      cases ran
      exact ⟨[], by simp, .nil⟩
  | cons e rest ih =>
      obtain ⟨_, stored, first, others⟩ := Run.bind_eq_ok_iff.mp ran
      obtain ⟨key, middle, compiled, added⟩ := Run.bind_eq_ok_iff.mp first
      have registering := (moves_expression e).of_ok compiled
      have isStored : stored = { middle with groupBy := middle.groupBy ++ [key] } := by
        cases added
        rfl
      have path : ReflTransGen Settles before stored := by
        rw [isStored]
        exact (registering.lift id fun _ _ => Settles.column).tail (.outside _ _ _ _ _ _ _)
      have settled : Consistent stored :=
        Run.kept_along (fun _ _ settles kept => kept.fill settles.fills) path consistent
      obtain ⟨later, grouped, keys⟩ := ih settled others
      refine ⟨key :: later, ?_, .cons (keyOf_of_expression consistent compiled) ?_⟩
      · have same := keepsKeys_expression e before key middle rfl compiled
        rw [grouped, isStored]
        simp [same]
      · exact keys.imp fun _ _ isKey =>
          isKey.congr fun parts => (Builder.meaning?_of_settles path parts).symm

theorem keepsKeys_afterGroupKeys (query : Sql.Query) :
    KeepsKeys keys (afterGroupKeys functions query) := by
  have having : KeepsKeys keys (addHaving functions query.having) :=
    .optionForM fun e _ => .bind (keepsKeys_expression e) fun _ =>
      Run.keeps_modify fun _ given => given
  have ordering : KeepsKeys keys (addOrderKeys functions query.orderBy) :=
    .forM fun key _ => .bind (keepsKeys_orderKey key.expr) fun _ =>
      Run.keeps_modify fun _ given => given
  refine having.bind fun _ => ordering.bind fun _ => Keeps.bind ?_ fun _ => ?_
  · exact Run.keeps_modify fun _ given => given
  · exact Run.keeps_modify fun _ given => given

/-- Before the keys are compiled there are none, and the builder is good. -/
theorem before_addGroupKeys {query : Sql.Query} {conditions : Conditions} {opened last : Builder}
    (consistent : Consistent opened) (noKeys : opened.groupBy = [])
    (ran : afterSources functions query conditions opened = .ok () last) :
    ∃ before next, Consistent before ∧ before.groupBy = [] ∧
      addGroupKeys functions query.groupBy before = .ok () next ∧
      afterGroupKeys functions query next = .ok () last := by
  obtain ⟨_, chosen, isSet, ran⟩ := Run.bind_eq_ok_iff.mp ran
  obtain ⟨_, shown, items, ran⟩ := Run.bind_eq_ok_iff.mp ran
  obtain ⟨_, joined, inner, ran⟩ := Run.bind_eq_ok_iff.mp ran
  obtain ⟨_, linked, left, ran⟩ := Run.bind_eq_ok_iff.mp ran
  obtain ⟨_, before, condition, ran⟩ := Run.bind_eq_ok_iff.mp ran
  obtain ⟨_, next, grouped, ran⟩ := Run.bind_eq_ok_iff.mp ran
  refine ⟨before, next, ?_, ?_, grouped, ran⟩
  · have setting : Run.Moves Fills (ofBuild (Builder.setDistinct query.distinct)) :=
      fills_modify fun _ => .outside _ _ _ _ _ _ _ _
    have early := (setting.of_ok isSet).trans ((fills_addItems functions query.items 1).of_ok items)
    have late := (((settles_addInnerConditions functions _).of_ok inner).trans
      ((settles_addLeftConditions functions _).of_ok left)).trans
      ((settles_addCondition functions _).of_ok condition)
    have path := early.trans (late.lift id fun _ _ settles => settles.fills)
    exact Run.kept_along (fun _ _ fills kept => kept.fill fills) path consistent
  · have setting : KeepsKeys [] (ofBuild (Builder.setDistinct query.distinct)) :=
      Run.keeps_modify fun _ given => given
    have inners : KeepsKeys [] (addInnerConditions functions conditions.inner) :=
      .forM fun e _ => .bind (keepsKeys_expression e) fun _ =>
        Run.keeps_modify fun _ given => given
    have conditioning : KeepsKeys [] (addCondition functions query.condition) :=
      .optionForM fun e _ => .bind (keepsKeys_expression e) fun _ =>
        Run.keeps_modify fun _ given => given
    exact conditioning linked _ before
      (keepsKeys_addLeftConditions conditions.left joined _ linked
        (inners shown _ joined
          (keepsKeys_addItems 1 query.items chosen _ shown
            (setting opened _ chosen noKeys isSet) items) inner) left) condition

/-- The keys of a compiled statement are those of its GROUP BY clause. -/
theorem forall₂_groupBy_of_clauses {catalog : Catalog} {defaultSchema : Option String}
    {useService : Bool} {query : Sql.Query} {last : Builder}
    (ran : clauses functions query { catalog, defaultSchema, useService } = .ok () last) :
    List.Forall₂ (KeyOf functions last) query.groupBy last.groupBy := by
  obtain ⟨conditions, opened, bound, ran⟩ := exists_of_clauses ran
  have binding := (moves_bindSources query.sources).of_ok bound
  have noKeys : opened.groupBy = [] := groupBy_along (fun _ _ binds => by cases binds; rfl) binding
  obtain ⟨before, next, consistent, start, grouped, rest⟩ :=
    before_addGroupKeys (Builder.layered_of_binds binding).1 noKeys ran
  obtain ⟨compiled, added, isKey⟩ := forall₂_of_addGroupKeys consistent grouped
  have path := ((settles_addGroupKeys functions query.groupBy).of_ok grouped).trans
    ((settles_afterGroupKeys functions query).of_ok rest)
  rw [keepsKeys_afterGroupKeys query next _ last rfl rest, added, start, List.nil_append]
  exact isKey.imp fun _ _ isKey => isKey.congr (Builder.meaning?_of_settles path)

end Compile

theorem exists_of_mem_of_forall₂ {α β : Type} {rel : α → β → Prop} {firsts : List α}
    {seconds : List β} (all : List.Forall₂ rel firsts seconds) {first : α}
    (member : first ∈ firsts) : ∃ second ∈ seconds, rel first second := by
  induction all with
  | nil => cases member
  | cons related _ ih =>
      rcases List.mem_cons.mp member with rfl | later
      · exact ⟨_, List.mem_cons_self, related⟩
      · obtain ⟨second, isSecond, related⟩ := ih later
        exact ⟨second, List.mem_cons_of_mem _ isSecond, related⟩

/-- Every variable of a group key is what a name in the GROUP BY clause means, or a
transform of arguments has brought it in; and a bare name in the clause becomes the
variable that it means.  So group keys avoid aggregates if no such variable is that of an
aggregate, and only if no key that is a bare name means one. -/
theorem Compiler.keysAvoidAggregates_of_compile {compiler : Compiler} {query : Sql.Query}
    {result : Query} (compiled : compiler.compile query = .ok result) :
    ∃ builder, Compile.clauses compiler.functions query compiler.start = .ok () builder ∧
      (∀ key ∈ result.groupBy, ∀ v ∈ key.vars,
        Compile.NamedIn builder query.groupBy v ∨ compiler.functions.BringsIn Expr.vars v) ∧
      (∀ parts, .column parts ∈ query.groupBy →
        ∃ v, .variable v ∈ result.groupBy ∧ builder.meaning? parts = some v) ∧
      ((∀ v ∈ result.aggregateVars, ¬ Compile.NamedIn builder query.groupBy v ∧
          ¬ compiler.functions.BringsIn Expr.vars v) →
        result.KeysAvoidAggregates) ∧
      (result.KeysAvoidAggregates →
        ∀ parts v, .column parts ∈ query.groupBy → builder.meaning? parts = some v →
          v ∉ result.aggregateVars) := by
  obtain ⟨builder, ran, built⟩ := compiler.exists_of_compile compiled
  have keys : List.Forall₂ (Compile.KeyOf compiler.functions builder) query.groupBy
      result.groupBy := by
    obtain ⟨_, _, _, groupBy, _⟩ := Builder.parts_of_build built
    rw [groupBy]
    exact Compile.forall₂_groupBy_of_clauses ran
  have known : ∀ key ∈ result.groupBy, ∀ v ∈ key.vars,
      Compile.NamedIn builder query.groupBy v ∨ compiler.functions.BringsIn Expr.vars v := by
    intro key isKey v inKey
    obtain ⟨e, written, keyOf⟩ := exists_of_mem_of_forall₂ keys.flip isKey
    refine (keyOf.named v inKey).imp_left ?_
    rintro ⟨parts, inside, meant⟩
    rw [List.flatMap_singleton] at inside
    exact ⟨parts, List.mem_flatMap.mpr ⟨e, written, inside⟩, meant⟩
  have bare : ∀ parts, .column parts ∈ query.groupBy →
      ∃ v, .variable v ∈ result.groupBy ∧ builder.meaning? parts = some v := by
    intro parts written
    obtain ⟨key, isKey, keyOf⟩ := exists_of_mem_of_forall₂ keys written
    obtain ⟨v, rfl, means⟩ := keyOf.bare parts rfl
    exact ⟨v, isKey, means⟩
  refine ⟨builder, ran, known, bare, ?_, ?_⟩
  · intro apart key isKey v inKey isAggregate
    obtain ⟨notNamed, notForeign⟩ := apart v isAggregate
    exact (known key isKey v inKey).elim notNamed notForeign
  · intro avoid parts v written meant
    obtain ⟨w, isKey, means⟩ := bare parts written
    rw [Option.some.inj (meant.symm.trans means)]
    exact avoid _ isKey w (by simp [Expr.vars])

/-- The functions that are called in `groupedReport`. -/
def functionsWithCount : FunctionTable :=
  (FunctionTable.register {} (FunctionTable.scalar "UPPER" .ucase 1 1)).register
    (FunctionTable.aggregate "COUNT" .count)

theorem keysAvoidAggregates_groupedReport :
    ∃ catalog result builder, twoTables.assemble = .ok catalog ∧
      ({ catalog, functions := functionsWithCount } : Compiler).compile groupedReport =
        .ok result ∧
      Compile.clauses functionsWithCount groupedReport
          ({ catalog, functions := functionsWithCount } : Compiler).start =
        .ok () builder ∧
      result.groupBy.length = 1 ∧ result.aggregateVars.length = 1 ∧
      ∀ v, builder.meaning? ["u"] = some v → v ∉ result.aggregateVars := by
  have checked : ∃ catalog, twoTables.assemble = .ok catalog ∧
      ∃ result, ({ catalog, functions := functionsWithCount } : Compiler).compile
          groupedReport = .ok result ∧
        result.groupBy.length = 1 ∧ result.aggregateVars.length = 1 ∧
        result.KeysAvoidAggregates := by
    decide +kernel
  obtain ⟨catalog, assembled, result, compiled, keys, aggregates, avoid⟩ := checked
  obtain ⟨builder, ran, _, _, _, only⟩ := Compiler.keysAvoidAggregates_of_compile compiled
  exact ⟨catalog, result, builder, assembled, compiled, ran, keys, aggregates,
    fun v meant => only avoid ["u"] v List.mem_cons_self meant⟩

/-- The statement `SELECT COUNT(*) AS n FROM foo GROUP BY n`. -/
def groupedByCount : Sql.Query :=
  { distinct := false
    items := [.expr (.call "COUNT" [] false true) (some "n")]
    sources := [⟨.table ["foo"] none, []⟩]
    condition := none
    groupBy := [.column ["n"]]
    having := none
    orderBy := []
    limit := none
    offset := none }

/-- The key is the count over the groups that it makes. -/
theorem not_keysAvoidAggregates_groupedByCount :
    ∃ catalog result, twoTables.assemble = .ok catalog ∧
      ({ catalog } : Compiler).compile groupedByCount = .ok result ∧
      ¬ result.KeysAvoidAggregates := by
  have checked : ∃ catalog, twoTables.assemble = .ok catalog ∧
      ∃ result, ({ catalog } : Compiler).compile groupedByCount = .ok result ∧
        ¬ result.KeysAvoidAggregates := by
    decide +kernel
  obtain ⟨catalog, assembled, result, compiled, depends⟩ := checked
  exact ⟨catalog, result, assembled, compiled, depends⟩

end TripleTables
