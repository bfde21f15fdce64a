import TripleTables.Proofs.Builder.Placement
import TripleTables.Proofs.Compile.Phases
import TripleTables.Proofs.Sql.Parts

/-!
# The columns that a clause mentions

A clause mentions the columns that its expressions name, and a star those of
the bindings that it covers.  `Mentioning` says what compiling a clause does to
the registered columns: those that the clause mentions and that have not been
registered are, and no others.  Which of two clauses is compiled first decides
which of them registers a column that both mention.
-/

namespace TripleTables

open TripleTables.Graph

/-! ## Names in expressions -/

namespace Sql

/-- The name of the column that the node is, if it is one. -/
def Part.columnName? : Part → Option Name
  | .expr (.column parts) => Name.ofColumnParts? parts
  | _ => none

/-- The names of columns in the expression, from left to right. -/
def Expr.columnNames (e : Expr) : List Name :=
  e.parts.filterMap Part.columnName?

theorem Expr.filterMap_listParts (es : List Expr) :
    (Expr.listParts es).filterMap Part.columnName? = es.flatMap Expr.columnNames := by
  rw [Expr.listParts_eq, List.filterMap_flatMap]
  rfl

section ColumnNames

variable (negated : Bool) (left right subject pattern low high operand inner : Expr)
  (items args : List Expr)

@[simp]
theorem columnNames_nested : (Expr.nested inner).columnNames = inner.columnNames :=
  rfl

@[simp]
theorem columnNames_binary (op : BinaryOp) :
    (Expr.binary op left right).columnNames = left.columnNames ++ right.columnNames := by
  rw [Expr.columnNames, Expr.parts, List.filterMap_cons_none rfl]
  simp [Expr.columnNames]

@[simp]
theorem columnNames_unary (op : UnaryOp) :
    (Expr.unary op operand).columnNames = operand.columnNames :=
  rfl

@[simp]
theorem columnNames_like :
    (Expr.like negated subject pattern).columnNames =
      subject.columnNames ++ pattern.columnNames := by
  rw [Expr.columnNames, Expr.parts, List.filterMap_cons_none rfl]
  simp [Expr.columnNames]

@[simp]
theorem columnNames_between :
    (Expr.between negated subject low high).columnNames =
      subject.columnNames ++ (low.columnNames ++ high.columnNames) := by
  rw [Expr.columnNames, Expr.parts, List.filterMap_cons_none rfl]
  simp [Expr.columnNames]

@[simp]
theorem columnNames_inList :
    (Expr.inList negated subject items).columnNames =
      subject.columnNames ++ items.flatMap Expr.columnNames := by
  rw [Expr.columnNames, Expr.parts, List.filterMap_cons_none rfl, List.filterMap_append,
    Expr.filterMap_listParts]
  rfl

@[simp]
theorem columnNames_isNull :
    (Expr.isNull negated subject).columnNames = subject.columnNames :=
  rfl

@[simp]
theorem columnNames_call (name : String) (distinct star : Bool) :
    (Expr.call name args distinct star).columnNames = args.flatMap Expr.columnNames :=
  Expr.filterMap_listParts args

end ColumnNames

/-- The condition of a join of the given kind. -/
def JoinRule.conditionsOn (kind : JoinKind) : JoinRule → List Expr
  | .cross => []
  | .on other condition => if other = kind then condition.toList else []

/-- The conditions of the joins of one kind, in order. -/
def SourceWithJoins.conditionsOn (kind : JoinKind) (sources : List SourceWithJoins) : List Expr :=
  sources.flatMap fun entry => entry.joins.flatMap fun join => join.rule.conditionsOn kind

/-- The rule of a left join. -/
def JoinRule.isLeft : JoinRule → Bool
  | .on .leftOuter _ => true
  | _ => false

/-- For each source, in order, whether it is the right side of a left join. -/
def SourceWithJoins.leftJoined (sources : List SourceWithJoins) : List Bool :=
  sources.flatMap fun entry => false :: entry.joins.map fun join => join.rule.isLeft

end Sql

namespace Builder

/-! ## Places -/

/-- The places of the columns that some names mean. -/
def placesOf (builder : Builder) (names : List Name) : List (Nat × Nat) :=
  names.filterMap fun name => (builder.resolveColumn name).toOption

theorem mem_placesOf_iff {builder : Builder} {names : List Name} {place : Nat × Nat} :
    place ∈ builder.placesOf names ↔
      ∃ name ∈ names, builder.resolveColumn name = .ok place := by
  simp only [placesOf, List.mem_filterMap]
  constructor
  · rintro ⟨name, member, found⟩
    cases resolved : builder.resolveColumn name with
    | error error => simp [resolved, Except.toOption] at found
    | ok other =>
        rw [resolved] at found
        cases found
        exact ⟨name, member, resolved⟩
  · rintro ⟨name, member, resolved⟩
    exact ⟨name, member, by rw [resolved]; rfl⟩

theorem placesOf_append (builder : Builder) (names more : List Name) :
    builder.placesOf (names ++ more) = builder.placesOf names ++ builder.placesOf more :=
  List.filterMap_append

/-- What a name means depends on the bindings only. -/
theorem placesOf_congr {builder next : Builder} (same : next.bindings = builder.bindings)
    (names : List Name) : next.placesOf names = builder.placesOf names := by
  simp only [placesOf, resolveColumn, candidates, same]

/-- The places of the registered columns. -/
def places (builder : Builder) : List (Nat × Nat) :=
  builder.registrations.map Registration.place

theorem Consistent.mem_places_iff {builder : Builder} (consistent : Consistent builder)
    {place : Nat × Nat} :
    place ∈ builder.places ↔ ∃ column, builder.registered? place = some column := by
  rw [← Option.isSome_iff_exists, consistent.isSome_registered?_iff, Builder.places,
    consistent.map_place_registrations]

/-- The names that a star covers, which stands for all bindings or for those
that a pattern covers. -/
def starNames (builder : Builder) (pattern : Option Name) : List Name :=
  ((builder.starTargets pattern).toOption.getD []).flatMap builder.columnsOfBinding

/-- The names that an item of the select list mentions. -/
def itemNames (builder : Builder) : Sql.SelectItem → List Name
  | .wildcard => builder.starNames none
  | .qualifiedWildcard parts =>
      match Name.ofTableParts? parts with
      | some pattern => builder.starNames (some pattern)
      | none => []
  | .expr e _ => e.columnNames

theorem starNames_congr {builder next : Builder} (same : next.bindings = builder.bindings)
    (pattern : Option Name) : next.starNames pattern = builder.starNames pattern := by
  have columns : next.columnsOfBinding = builder.columnsOfBinding := by
    funext name
    simp only [columnsOfBinding, same]
  simp only [starNames, starTargets, same, columns]

theorem itemNames_congr {builder next : Builder} (same : next.bindings = builder.bindings) :
    next.itemNames = builder.itemNames := by
  funext item
  cases item with
  | wildcard => exact starNames_congr same none
  | qualifiedWildcard parts => simp only [itemNames, starNames_congr same]
  | expr e asName => rfl

/-! ## What a step registers -/

/-- Columns are registered behind those that are there, with a wish to keep
them as optional or without. -/
structure Growing (wanted : Bool) (builder next : Builder) : Prop where
  consistent : Consistent next
  bindings : next.bindings = builder.bindings
  registered : ∃ more, next.registrations = builder.registrations ++ more ∧
    ∀ registration ∈ more, registration.inGroup =
      (registration.binding.isOptional || registration.column.nullable || wanted)

/-- The columns that are registered are those that some names mean, as far as
they have not been registered before. -/
structure Mentioning (wanted : Bool) (names : List Name) (builder next : Builder) : Prop
    extends Growing wanted builder next where
  places : ∀ place,
    place ∈ next.places ↔ place ∈ builder.places ∨ place ∈ builder.placesOf names

namespace Growing

variable {wanted : Bool} {builder middle next : Builder}

theorem trans (early : Growing wanted builder middle) (late : Growing wanted middle next) :
    Growing wanted builder next := by
  obtain ⟨first, isFirst, firstFlags⟩ := early.registered
  obtain ⟨second, isSecond, secondFlags⟩ := late.registered
  refine ⟨late.consistent, late.bindings.trans early.bindings, first ++ second, ?_, ?_⟩
  · rw [isSecond, isFirst, List.append_assoc]
  · intro registration member
    rcases List.mem_append.mp member with inFirst | inSecond
    · exact firstFlags registration inFirst
    · exact secondFlags registration inSecond

end Growing

namespace Mentioning

variable {wanted : Bool} {builder middle next : Builder} {names more : List Name}

/-- The step leaves the columns alone. -/
theorem of_columns (consistent : Consistent next) (bindings : next.bindings = builder.bindings)
    (index : next.columnIndex = builder.columnIndex) (columns : next.columns = builder.columns) :
    Mentioning wanted [] builder next := by
  have same : next.registrations = builder.registrations := by
    have each : next.registrationOf? = builder.registrationOf? := by
      funext entry
      simp only [registrationOf?, bindings, columns]
    rw [registrations, index, each, registrations]
  refine ⟨⟨consistent, bindings, [], by rw [same, List.append_nil], by simp⟩, ?_⟩
  intro place
  simp [Builder.places, same, placesOf]

theorem refl (consistent : Consistent builder) : Mentioning wanted [] builder builder :=
  of_columns consistent rfl rfl rfl

theorem trans (early : Mentioning wanted names builder middle)
    (late : Mentioning wanted more middle next) :
    Mentioning wanted (names ++ more) builder next := by
  refine ⟨early.toGrowing.trans late.toGrowing, ?_⟩
  intro place
  rw [late.places, early.places, placesOf_congr early.bindings, placesOf_append, List.mem_append,
    or_assoc]

/-- A step after which the columns are left alone. -/
theorem andThen (early : Mentioning wanted names builder middle)
    (late : Mentioning wanted [] middle next) : Mentioning wanted names builder next := by
  have both := early.trans late
  rwa [List.append_nil] at both

end Mentioning

/-! ## Operations -/

theorem mentioning_addColumn {builder next : Builder} {name : Name} {optional : Bool}
    {v : Variable} (consistent : Consistent builder)
    (ran : addColumn name optional builder = .ok v next) :
    Mentioning optional [name] builder next := by
  have moves : Run.Moves Fills (addColumn name optional) :=
    (moves_addColumn name optional).mono fun _ _ => .column
  have consistentNext : Consistent next := consistent.of_moves moves ran
  have grown := (adds_addColumn consistent name optional).registered
  rw [Run.after_of_ok ran] at grown
  rcases addColumn_spec name optional builder with
    ⟨error, _, failed⟩ | ⟨place, column, resolved, known, found⟩ | ⟨place, resolved, _, registering⟩
  · rw [failed] at ran
    cases ran
  · rw [found] at ran
    cases ran
    refine ⟨⟨consistent, rfl, grown⟩, ?_⟩
    intro other
    rw [mem_placesOf_iff]
    constructor
    · exact .inl
    · rintro (old | ⟨_, member, meant⟩)
      · exact old
      · rw [List.mem_singleton.mp member, resolved] at meant
        cases meant
        exact consistent.mem_places_iff.mpr ⟨column, known⟩
  · rcases registerColumn_spec place optional builder with
      ⟨error, _, failed⟩ | ⟨binding, column, triple, blocks, inGroup, bound, declared, filled,
        placing, registered⟩
    · rw [registering, failed] at ran
      cases ran
    · rw [registering, registered] at ran
      cases ran
      refine ⟨⟨consistentNext, rfl, grown⟩, ?_⟩
      intro other
      rw [mem_placesOf_iff, Builder.places, consistent.registrations_withColumn bound declared
        filled (.placeColumn placing) inGroup, List.map_append, List.mem_append]
      refine or_congr .rfl ?_
      simp [resolved, eq_comm]

theorem mentioning_addVar {builder next : Builder} {v : Variable} {displayName : Option String}
    (wanted : Bool) (consistent : Consistent builder)
    (ran : addVar v displayName builder = .ok () next) : Mentioning wanted [] builder next := by
  have consistentNext := consistent.of_moves (moves_addVar v displayName) ran
  obtain ⟨projection, _, _, _, rfl⟩ := addVar_eq_ok ran
  exact .of_columns consistentNext rfl rfl rfl

theorem mentioning_addComputed {builder next : Builder} {expr : Expr} {displayName : String}
    {v : Variable} (wanted : Bool) (consistent : Consistent builder)
    (ran : addComputed expr displayName builder = .ok v next) :
    Mentioning wanted [] builder next := by
  have consistentNext := consistent.of_moves (moves_addComputed expr displayName) ran
  obtain ⟨projection, _, _, ⟨_, _, rfl⟩ | ⟨_, _, rfl⟩⟩ := addComputed_eq_ok ran
  · exact .of_columns consistentNext rfl rfl rfl
  · exact .of_columns consistentNext rfl rfl rfl

theorem mentioning_addBindingFilter {builder next : Builder} {id : Nat} {condition : Expr}
    (wanted : Bool) (consistent : Consistent builder)
    (ran : addBindingFilter id condition builder = .ok () next) :
    Mentioning wanted [] builder next := by
  have consistentNext := consistent.of_moves (moves_addBindingFilter id condition) ran
  rcases addBindingFilter_eq_ok ran with ⟨_, _, _, _, _, _, rfl⟩ | rfl
  · exact .of_columns consistentNext rfl rfl rfl
  · exact .of_columns consistentNext rfl rfl rfl

theorem mentioning_addEach {builder next : Builder} {names : List Name}
    (consistent : Consistent builder) (ran : addEach names builder = .ok () next) :
    Mentioning false names builder next := by
  induction names generalizing builder with
  | nil =>
      cases ran
      exact .refl consistent
  | cons name rest ih =>
      rw [addEach] at ran
      obtain ⟨v, registered, added, ran⟩ := Run.bind_eq_ok_iff.mp ran
      obtain ⟨_, shown, isShown, ran⟩ := Run.bind_eq_ok_iff.mp ran
      have column := mentioning_addColumn consistent added
      have both := column.andThen (mentioning_addVar false column.consistent isShown)
      exact both.trans (ih both.consistent ran)

theorem mentioning_addAllColumns {builder next : Builder} {pattern : Option Name}
    (consistent : Consistent builder) (ran : addAllColumns pattern builder = .ok () next) :
    Mentioning false (builder.starNames pattern) builder next := by
  cases targets : builder.starTargets pattern with
  | error error => simp [addAllColumns, targets] at ran
  | ok names =>
      simp only [addAllColumns, Run.get_bind_apply, targets, Run.build_liftExcept_ok,
        pure_bind] at ran
      have covered : builder.starNames pattern = names.flatMap builder.columnsOfBinding := by
        simp [starNames, targets, Except.toOption]
      rw [covered]
      exact mentioning_addEach consistent ran

end Builder

namespace Compile

open TripleTables.Builder (Consistent Growing Mentioning)

variable {mode : Mode} {before next : Builder}

/-! ## Expressions -/

/-- A name that means a column registers it; one that means a result column
does not. -/
theorem mentioning_columnVariable {parts : Sql.ObjectName} {v : Variable}
    (consistent : Consistent before) (ran : columnVariable mode parts before = .ok v next) :
    Mentioning mode.optionalColumns (Sql.Expr.columnNames (.column parts)) before next := by
  obtain ⟨name, named, added | ⟨⟨unknown, unresolved⟩, rfl, _⟩⟩ := columnVariable_eq_ok ran
  all_goals
    have names : Sql.Expr.columnNames (.column parts) = [name] := by
      simp [Sql.Expr.columnNames, Sql.Expr.parts, Sql.Part.columnName?, named]
    rw [names]
  · exact Builder.mentioning_addColumn consistent added
  · have kept : Mentioning mode.optionalColumns [] next next := .refl consistent
    refine ⟨kept.toGrowing, ?_⟩
    intro place
    simp [Builder.placesOf, unresolved, Except.toOption]

/-- What can be said of one column name after the other can be said of all the
names in expressions that are compiled. -/
theorem Visits.gather {rel : List Name → Builder → Builder → Prop}
    (stay : ∀ {builder}, Consistent builder → rel [] builder builder)
    (compose : ∀ {names more early middle late}, rel names early middle → rel more middle late →
      rel (names ++ more) early late)
    (keeps : ∀ {names early late}, rel names early late → Consistent late)
    (column : ∀ {parts v early late}, Consistent early →
      columnVariable mode parts early = .ok v late →
      rel (Sql.Expr.columnNames (.column parts)) early late)
    {es : List Sql.Expr} {results : List Expr} (visits : Visits mode before es results next)
    (consistent : Consistent before) : rel (es.flatMap Sql.Expr.columnNames) before next := by
  induction visits with
  | nil => exact stay consistent
  | cons first others firstIh othersIh =>
      have early := firstIh consistent
      rw [List.flatMap_singleton] at early
      exact compose early (othersIh (keeps early))
  | column given => simpa using column consistent given
  | literal translated => exact stay consistent
  | nested operands ih => simpa using ih consistent
  | binary translated operands ih => simpa using ih consistent
  | unary operands ih => simpa using ih consistent
  | like operands matched ih => simpa using ih consistent
  | between operands ih => simpa using ih consistent
  | inList operands ih => simpa using ih consistent
  | isNull operands tested ih => simpa using ih consistent
  | call resolved visited applied ih => simpa using ih consistent

/-- Compiling expressions registers the columns that they name. -/
theorem Visits.mentioning {es : List Sql.Expr} {results : List Expr}
    (visits : Visits mode before es results next) (consistent : Consistent before) :
    Mentioning mode.optionalColumns (es.flatMap Sql.Expr.columnNames) before next :=
  visits.gather .refl .trans (fun mentioning => mentioning.consistent) mentioning_columnVariable
    consistent

theorem mentioning_expression {e : Sql.Expr} {result : Expr} (consistent : Consistent before)
    (ran : expression mode e before = .ok result next) :
    Mentioning mode.optionalColumns e.columnNames before next := by
  simpa using (visits_of_expression ran).mentioning consistent

/-! ## Clauses -/

/-- A clause made of steps mentions what the steps mention. -/
theorem mentioning_forM {α : Type} {wanted : Bool} {step : α → Compile PUnit}
    {names : α → List Name}
    (each : ∀ value before next, Consistent before → step value before = .ok () next →
      Mentioning wanted (names value) before next)
    (values : List α) (consistent : Consistent before)
    (ran : values.forM step before = .ok () next) :
    Mentioning wanted (values.flatMap names) before next := by
  induction values generalizing before with
  | nil =>
      cases ran
      exact .refl consistent
  | cons value rest ih =>
      obtain ⟨_, middle, first, others⟩ := Run.bind_eq_ok_iff.mp ran
      have early := each value before middle consistent first
      exact early.trans (ih early.consistent others)

/-- An expression is compiled and what it gives is put outside the columns. -/
theorem mentioning_bind {e : Sql.Expr} {store : Expr → Compile PUnit}
    (stores : ∀ result before next, Consistent before → store result before = .ok () next →
      Mentioning mode.optionalColumns [] before next)
    (consistent : Consistent before)
    (ran : (expression mode e >>= store) before = .ok () next) :
    Mentioning mode.optionalColumns e.columnNames before next := by
  obtain ⟨result, middle, compiled, stored⟩ := Run.bind_eq_ok_iff.mp ran
  have early := mentioning_expression consistent compiled
  exact early.andThen (stores result middle next early.consistent stored)

theorem mentioning_addItem {functions : FunctionTable} {position : Nat} {item : Sql.SelectItem}
    (consistent : Consistent before)
    (ran : addItem functions position item before = .ok () next) :
    Mentioning false (before.itemNames item) before next := by
  cases item with
  | wildcard => exact Builder.mentioning_addAllColumns consistent (Run.ofBuild_eq_ok_iff.mp ran)
  | qualifiedWildcard parts =>
      obtain ⟨pattern, middle, named, ran⟩ := Run.bind_eq_ok_iff.mp ran
      obtain ⟨named, rfl⟩ := Run.liftExcept_eq_ok_iff.mp named
      cases read : Name.ofTableParts? parts with
      | none => simp [tableName, read] at named
      | some other =>
          simp only [tableName, read] at named
          cases named
          simp only [Builder.itemNames, read]
          exact Builder.mentioning_addAllColumns consistent (Run.ofBuild_eq_ok_iff.mp ran)
  | expr e asName =>
      refine mentioning_bind ?_ consistent ran
      intro result before next consistent ran
      split at ran
      · exact Builder.mentioning_addVar false consistent (Run.ofBuild_eq_ok_iff.mp ran)
      · obtain ⟨v, middle, computed, done⟩ := Run.bind_eq_ok_iff.mp ran
        cases done
        exact Builder.mentioning_addComputed false consistent (Run.ofBuild_eq_ok_iff.mp computed)

theorem mentioning_addItems {functions : FunctionTable} {position : Nat}
    {items : List Sql.SelectItem} (consistent : Consistent before)
    (ran : addItems functions position items before = .ok () next) :
    Mentioning false (items.flatMap before.itemNames) before next := by
  induction items generalizing position before with
  | nil =>
      cases ran
      exact .refl consistent
  | cons item rest ih =>
      obtain ⟨_, middle, first, others⟩ := Run.bind_eq_ok_iff.mp ran
      have early := mentioning_addItem consistent first
      have late := ih early.consistent others
      rw [Builder.itemNames_congr early.bindings] at late
      exact early.trans late

theorem mentioning_addInnerConditions {functions : FunctionTable} {conditions : List Sql.Expr}
    (consistent : Consistent before)
    (ran : addInnerConditions functions conditions before = .ok () next) :
    Mentioning false (conditions.flatMap Sql.Expr.columnNames) before next := by
  refine mentioning_forM ?_ conditions consistent ran
  intro e before next consistent ran
  refine mentioning_bind ?_ consistent ran
  intro condition before next consistent ran
  have added : next = { before with filters := before.filters ++ [condition] } := by
    cases ran
    rfl
  subst added
  exact .of_columns (consistent.fill (.outside _ _ _ _ _ _ _ _)) rfl rfl rfl

theorem mentioning_addLeftConditions {functions : FunctionTable}
    {conditions : List (Nat × Sql.Expr)} (consistent : Consistent before)
    (ran : addLeftConditions functions conditions before = .ok () next) :
    Mentioning true ((conditions.map Prod.snd).flatMap Sql.Expr.columnNames) before next := by
  rw [List.flatMap_map]
  refine mentioning_forM ?_ conditions consistent ran
  intro entry before next consistent ran
  refine mentioning_bind ?_ consistent ran
  intro result before next consistent ran
  exact Builder.mentioning_addBindingFilter true consistent (Run.ofBuild_eq_ok_iff.mp ran)

/-! ## The clauses after the joins -/

/-- The step registers columns without a wish, whichever they are. -/
def Grows {α : Type} (step : Compile α) : Prop :=
  ∀ before value next, Consistent before → step before = .ok value next →
    Growing false before next

namespace Grows

variable {α β : Type}

theorem pure (value : α) : Grows (pure value) := by
  intro before _ next consistent ran
  cases ran
  exact (Mentioning.refl consistent).toGrowing

theorem throw (error : CompileError) : Grows (throw error : Compile α) := by
  intro before _ next consistent ran
  cases ran

theorem get : Grows get := by
  intro before _ next consistent ran
  cases ran
  exact (Mentioning.refl consistent).toGrowing

theorem bind {first : Compile α} {following : α → Compile β} (early : Grows first)
    (late : ∀ value, Grows (following value)) : Grows (first >>= following) := by
  intro before _ next consistent ran
  obtain ⟨value, middle, firstRan, restRan⟩ := Run.bind_eq_ok_iff.mp ran
  have grown := early before value middle consistent firstRan
  exact grown.trans (late value middle _ next grown.consistent restRan)

theorem forM {step : α → Compile PUnit} (each : ∀ value, Grows (step value)) (values : List α) :
    Grows (values.forM step) := by
  induction values with
  | nil => exact pure _
  | cons value rest ih => exact bind (each value) fun _ => ih

theorem optionForM {step : α → Compile PUnit} (each : ∀ value, Grows (step value))
    (value : Option α) : Grows (value.forM step) := by
  cases value with
  | none => exact pure _
  | some value => exact each value

theorem liftExcept (result : Except CompileError α) : Grows (liftExcept result) := by
  cases result with
  | ok value => exact pure value
  | error error => exact throw error

theorem expression (plain : mode.optionalColumns = false) (e : Sql.Expr) :
    Grows (expression mode e) := by
  intro before result next consistent ran
  have mentioning := mentioning_expression consistent ran
  rw [plain] at mentioning
  exact mentioning.toGrowing

/-- A part outside the blocks is set. -/
theorem outside {change : Builder → Builder}
    (sets : ∀ builder, ∃ binds filters distinct groupBy having orderBy limit offset,
      change builder =
        { builder with binds, filters, distinct, groupBy, having, orderBy, limit, offset }) :
    Grows (ofBuild (modify change)) := by
  intro before _ next consistent ran
  obtain ⟨_, _, _, _, _, _, _, _, changed⟩ := sets before
  have same : next = change before := by
    cases ran
    rfl
  have filled : Builder.Fills before next := by
    rw [same, changed]
    exact .outside _ _ _ _ _ _ _ _
  have kept : Mentioning false [] before next :=
    .of_columns (consistent.fill filled) (by rw [same, changed]) (by rw [same, changed])
      (by rw [same, changed])
  exact kept.toGrowing

end Grows

theorem grows_addCondition (functions : FunctionTable) (condition : Option Sql.Expr) :
    Grows (addCondition functions condition) :=
  .optionForM (fun e => .bind (.expression rfl e) fun _ =>
    .outside fun _ => ⟨_, _, _, _, _, _, _, _, rfl⟩) condition

theorem grows_orderKey (functions : FunctionTable) (e : Sql.Expr) :
    Grows (orderKey functions e) := by
  apply Grows.bind .get
  intro builder
  apply Grows.bind (.liftExcept _)
  intro found
  cases found with
  | some v => exact .pure _
  | none => exact .expression rfl e

theorem grows_afterConditions (functions : FunctionTable) (query : Sql.Query) :
    Grows (afterConditions functions query) := by
  apply Grows.bind
  · apply Grows.forM
    intro e
    exact .bind (.expression rfl e) fun _ => .outside fun _ => ⟨_, _, _, _, _, _, _, _, rfl⟩
  intro _
  apply Grows.bind
  · apply Grows.optionForM
    intro e
    exact .bind (.expression rfl e) fun _ => .outside fun _ => ⟨_, _, _, _, _, _, _, _, rfl⟩
  intro _
  apply Grows.bind
  · apply Grows.forM
    intro key
    exact .bind (grows_orderKey functions key.expr) fun _ =>
      .outside fun _ => ⟨_, _, _, _, _, _, _, _, rfl⟩
  intro _
  apply Grows.bind (.outside fun _ => ⟨_, _, _, _, _, _, _, _, rfl⟩)
  intro _
  exact .outside fun _ => ⟨_, _, _, _, _, _, _, _, rfl⟩

end Compile

end TripleTables
