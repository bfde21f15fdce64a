import TripleTables.Proofs.Builder.Capture
import TripleTables.Proofs.Catalog.Validated

/-!
# How operations fail

An operation on a reachable builder fails because of what it is asked for: a
name that means no table or column or more than one, an alias or a display name
that is taken, or a template of the catalog that cannot be filled.  It never
fails because the parts of the builder do not fit together, since reachable
builders are consistent.  The one exception is a filter for a binding that does
not exist.
-/

namespace TripleTables

open TripleTables.Graph

/-! ## Names -/

namespace NameMap

variable {α : Type} {entry : Name × α}

theorem mem_of_put {name : Name} {value : α} {entries : List (Name × α)}
    (member : entry ∈ put name value entries) : entry = (name, value) ∨ entry ∈ entries := by
  induction entries with
  | nil => simpa [put] using member
  | cons first rest ih =>
      unfold put at member
      split at member
      · rcases List.mem_cons.mp member with isNew | inRest
        · exact .inl isNew
        · exact .inr (List.mem_cons_of_mem _ inRest)
      · rcases List.mem_cons.mp member with isFirst | later
        · exact .inr (by simp [isFirst])
        · exact (ih later).imp_right (List.mem_cons_of_mem _)

/-- Every entry of the map of a list stands in the list. -/
theorem mem_of_ofList {entries : List (Name × α)} (member : entry ∈ (ofList entries).entries) :
    entry ∈ entries := by
  have gathered : ∀ (map : NameMap α),
      entry ∈ (entries.foldl (fun map entry => map.insert entry.1 entry.2) map).entries →
        entry ∈ map.entries ∨ entry ∈ entries := by
    clear member
    induction entries with
    | nil => exact fun map member => .inl member
    | cons first rest ih =>
        intro map member
        rcases ih _ member with before | later
        · rcases mem_of_put before with isFirst | old
          · exact .inr (by simp [isFirst])
          · exact .inl old
        · exact .inr (List.mem_cons_of_mem _ later)
  simpa [empty] using gathered empty member

theorem mem_of_only? {pattern : Name} {values : List α} {value : α}
    (found : only? pattern values = .ok (some value)) : value ∈ values := by
  unfold only? at found
  split at found
  · cases found
  · cases found
    exact List.mem_singleton_self value
  · cases found

/-- What a pattern is found to mean is the value of an entry. -/
theorem exists_mem_of_find? {map : NameMap α} {pattern : Name} {value : α}
    (found : map.find? pattern = .ok (some value)) : ∃ name, (name, value) ∈ map.entries := by
  have entered : value ∈ map.entries.map Prod.snd → ∃ name, (name, value) ∈ map.entries := by
    intro member
    obtain ⟨entry, inEntries, rfl⟩ := List.mem_map.mp member
    exact ⟨entry.1, inEntries⟩
  unfold find? at found
  split at found
  · obtain ⟨entry, looked, rfl⟩ := Option.map_eq_some_iff.mp (Except.ok.inj found)
    exact ⟨entry.1, List.mem_of_find?_eq_some looked⟩
  · split at found
    · exact entered (mem_of_only? found)
    · exact entered ((List.filter_sublist.map Prod.snd).subset (mem_of_only? found))

end NameMap

/-- Every template of the catalog can be filled. -/
def Catalog.Fillable (catalog : Catalog) : Prop :=
  ∀ table ∈ catalog.tables, table.Fillable ∧ ∀ column ∈ table.columns, column.Fillable

/-- The templates of an assembled catalog that is valid can be filled: none of
its columns is without one. -/
theorem CatalogDefinition.fillable_of_validate {definition : CatalogDefinition}
    {catalog : Catalog} (assembled : definition.assemble = .ok catalog)
    (valid : catalog.validate = .ok ()) : catalog.Fillable := by
  intro table member
  obtain ⟨own, columns⟩ := Catalog.validate_eq_ok_iff.mp valid table member
  exact ⟨own, fun column declared => columns column declared
    (isSome_template_of_assemble assembled table member column declared)⟩

namespace Builder

/-- An error that says something of what was asked for, or blames a template
of a catalog in which some template cannot be filled. -/
def Refusal (catalog : Catalog) : QueryError → Prop
  | .unknownTable _ => True
  | .unknownColumn _ => True
  | .ambiguous _ => True
  | .duplicateAlias _ => True
  | .duplicateProjection _ => True
  | .malformed _ => ¬ catalog.Fillable
  | .emptyFrom => False
  | .unknownBinding _ => False
  | .catalog _ => False

variable {catalog : Catalog} {builder next : Builder} {error : QueryError}

/-! ## What a name means -/

theorem refusal_of_lookupTable {name : Name}
    (failed : builder.lookupTable name = .error error) : Refusal catalog error := by
  unfold lookupTable at failed
  cases looked : builder.catalog.lookupTable name with
  | error ambiguity =>
      rw [looked] at failed
      cases failed
      trivial
  | ok found => simp [looked, Except.mapError] at failed

theorem refusal_of_lookupInDefault {name : Name}
    (failed : builder.lookupInDefault name = .error error) : Refusal catalog error := by
  unfold lookupInDefault at failed
  split at failed
  · exact refusal_of_lookupTable failed
  · contradiction

theorem refusal_of_resolveTable {name : Name}
    (failed : builder.resolveTable name = .error error) : Refusal catalog error := by
  unfold resolveTable at failed
  cases preferred : builder.lookupInDefault name with
  | error other =>
      rw [preferred] at failed
      cases failed
      exact refusal_of_lookupInDefault preferred
  | ok result =>
      cases result with
      | some table => simp [preferred, bind, Except.bind, pure, Except.pure] at failed
      | none =>
          simp only [preferred, bind, Except.bind] at failed
          cases looked : builder.lookupTable name with
          | error other =>
              rw [looked] at failed
              cases failed
              exact refusal_of_lookupTable looked
          | ok found =>
              rw [looked] at failed
              cases found with
              | some table => simp [pure, Except.pure] at failed
              | none =>
                  cases failed
                  trivial

theorem refusal_of_resolveColumn {name : Name}
    (failed : builder.resolveColumn name = .error error) : Refusal catalog error := by
  unfold resolveColumn at failed
  cases found : builder.candidates.find? name with
  | error ambiguity =>
      rw [found] at failed
      cases failed
      trivial
  | ok result =>
      cases result with
      | some place =>
          simp [found, Except.mapError, bind, Except.bind, pure, Except.pure] at failed
      | none =>
          rw [found] at failed
          cases failed
          trivial

/-- The place that a name is resolved to is that of a column of a binding. -/
theorem Consistent.exists_of_resolveColumn (consistent : Consistent builder) {name : Name}
    {place : Nat × Nat} (resolved : builder.resolveColumn name = .ok place) :
    ∃ binding column, builder.bindings[place.1]? = some binding ∧
      binding.table.columns[place.2]? = some column := by
  have found : builder.candidates.find? name = .ok (some place) := by
    unfold resolveColumn at resolved
    cases found : builder.candidates.find? name with
    | error ambiguity => simp [found, Except.mapError, bind, Except.bind] at resolved
    | ok result =>
        cases result with
        | none => simp [found, Except.mapError, bind, Except.bind] at resolved
        | some other =>
            simp only [found, Except.mapError, bind, Except.bind] at resolved
            cases resolved
            rfl
  obtain ⟨full, entered⟩ := NameMap.exists_mem_of_find? found
  obtain ⟨binding, isBound, candidate⟩ := List.mem_flatMap.mp (NameMap.mem_of_ofList entered)
  obtain ⟨i, bound⟩ := List.mem_iff_getElem?.mp isBound
  obtain ⟨position, inside, same⟩ := List.mem_iff_getElem.mp candidate
  simp only [bindingCandidates, List.length_mapIdx, Binding.columnNames, List.length_map] at inside
  simp only [bindingCandidates, List.getElem_mapIdx, Prod.mk.injEq] at same
  obtain ⟨_, rfl⟩ := same
  rw [consistent.ids bound]
  exact ⟨binding, _, bound, List.getElem?_eq_getElem inside⟩

/-! ## The single operations -/

theorem exists_groupAt_of_isGroup {position : Nat} (isGroup : IsGroup builder.blocks position) :
    ∃ group, builder.groupAt position = .ok group := by
  obtain ⟨group, found⟩ := isGroup
  exact ⟨group, by simp [groupAt, found]⟩

/-- The triple of a column can always be placed. -/
theorem Consistent.exists_placeColumn (consistent : Consistent builder) {i : Nat}
    {binding : Binding} (bound : builder.bindings[i]? = some binding) (nullable optional : Bool)
    (triple : Triple) :
    ∃ result, builder.placeColumn binding nullable optional triple = .ok result := by
  unfold placeColumn
  cases grouped : binding.group with
  | some position =>
      obtain ⟨group, found⟩ := exists_groupAt_of_isGroup (consistent.groups bound grouped)
      exact ⟨_, by simp only [found]; rfl⟩
  | none =>
      dsimp only
      split
      · exact ⟨_, rfl⟩
      · exact ⟨_, rfl⟩

/-- A column of a bound table that has not been registered can be registered,
unless its template cannot be filled. -/
theorem refusal_of_registerColumn (reachable : Reachable catalog builder)
    {place : Nat × Nat} {binding : Binding} {column : Column}
    (found : builder.bindings[place.1]? = some binding)
    (declared : binding.table.columns[place.2]? = some column) {optional : Bool}
    (failed : registerColumn place optional builder = .error error next) :
    Refusal catalog error := by
  simp only [registerColumn, Run.get_bind_apply, bindingAt, found, Run.build_liftExcept_ok,
    pure_bind, Table.columnAt, declared, Except.mapError] at failed
  cases filled : columnTriple binding column (binding.columnVariable column) with
  | error fault =>
      rw [Binding.columnVariable] at filled
      simp only [filled, Run.build_liftExcept_error, Run.throw_bind, Run.throw_apply] at failed
      cases failed
      intro fillable
      have ofCatalog := reachable.bound.tables binding (List.mem_of_getElem? found)
      obtain ⟨triple, made⟩ := exists_columnTriple_iff.mpr
        ((fillable _ ofCatalog).2 column (List.mem_of_getElem? declared))
      rw [filled] at made
      cases made
  | ok triple =>
      obtain ⟨result, placed⟩ :=
        reachable.consistent.exists_placeColumn found column.nullable optional triple
      rw [Binding.columnVariable] at filled
      simp only [filled, placed, Run.build_liftExcept_ok, pure_bind, Run.set_bind_apply,
        Run.pure_apply] at failed
      contradiction

theorem refusal_of_addColumn (reachable : Reachable catalog builder) {name : Name}
    {optional : Bool} (failed : addColumn name optional builder = .error error next) :
    Refusal catalog error := by
  rcases addColumn_spec name optional builder with
    ⟨other, unresolved, ran⟩ | ⟨_, column, _, _, ran⟩ | ⟨place, resolved, _, registering⟩
  · rw [ran] at failed
    cases failed
    exact refusal_of_resolveColumn unresolved
  · rw [ran] at failed
    cases failed
  · obtain ⟨binding, column, found, declared⟩ :=
      reachable.consistent.exists_of_resolveColumn resolved
    exact refusal_of_registerColumn reachable found declared (registering ▸ failed)

theorem refusal_of_addTable (reachable : Reachable catalog builder) {tableName : Name}
    {asName : Option String} {optional : Bool}
    (failed : addTable tableName asName optional builder = .error error next) :
    Refusal catalog error := by
  rcases addTable_spec tableName asName optional builder with
    ⟨other, unbound, ran⟩ | ⟨_, _, _, _, _, ran⟩
  · rw [ran] at failed
    cases failed
    cases unbound with
    | unresolved unresolved => exact refusal_of_resolveTable unresolved
    | taken _ => trivial
    | unfilled resolved unfilled =>
        intro fillable
        have ofCatalog := reachable.bound.sameCatalog ▸ mem_tables_of_resolveTable resolved
        obtain ⟨triples, made⟩ := (Table.exists_triples_iff _ _).mpr (fillable _ ofCatalog).1
        rw [unfilled] at made
        cases made
  · rw [ran] at failed
    cases failed

theorem refusal_of_addVar {v : Variable} {displayName : Option String}
    (failed : addVar v displayName builder = .error error next) : Refusal catalog error := by
  cases chosen : builder.chooseDisplayName v displayName with
  | ok name =>
      simp only [addVar, Run.get_bind_apply, chosen, Run.build_liftExcept_ok, pure_bind] at failed
      cases failed
  | error other =>
      simp only [addVar, Run.get_bind_apply, chosen, Run.build_liftExcept_error, Run.throw_bind,
        Run.throw_apply] at failed
      cases failed
      unfold chooseDisplayName at chosen
      split at chosen
      · split at chosen
        · cases chosen
          trivial
        · contradiction
      · split at chosen
        · contradiction
        · cases chosen
          trivial

theorem refusal_of_addComputed {expr : Expr} {displayName : String}
    (failed : addComputed expr displayName builder = .error error next) :
    Refusal catalog error := by
  by_cases taken : builder.displayNames.contains displayName = true
  · simp only [addComputed, Run.get_bind_apply, taken, if_true, Run.throw_bind,
      Run.throw_apply] at failed
    cases failed
    trivial
  · simp only [addComputed, Run.get_bind_apply, taken, Bool.false_eq_true, if_false] at failed
    cases failed

/-- A filter for a binding that exists can always be added. -/
theorem addBindingFilter_eq_error (reachable : Reachable catalog builder) {id : Nat}
    {condition : Expr}
    (failed : addBindingFilter id condition builder = .error error next) :
    builder.bindings.length ≤ id ∧ error = .unknownBinding id := by
  cases found : builder.bindings[id]? with
  | none =>
      simp only [addBindingFilter, Run.get_bind_apply, bindingAt, found,
        Run.build_liftExcept_error, Run.throw_bind, Run.throw_apply] at failed
      cases failed
      exact ⟨List.getElem?_eq_none_iff.mp found, rfl⟩
  | some binding =>
      simp only [addBindingFilter, Run.get_bind_apply, bindingAt, found,
        Run.build_liftExcept_ok, pure_bind] at failed
      cases grouped : binding.group with
      | none =>
          rw [grouped] at failed
          cases failed
      | some position =>
          obtain ⟨group, isThere⟩ :=
            exists_groupAt_of_isGroup (reachable.consistent.groups found grouped)
          rw [grouped] at failed
          simp only [isThere, Run.build_liftExcept_ok, pure_bind] at failed
          cases failed

theorem refusal_of_starTargets {pattern : Option Name}
    (failed : builder.starTargets pattern = .error error) : Refusal catalog error := by
  unfold starTargets at failed
  dsimp only at failed
  split at failed
  · contradiction
  · split at failed
    · cases failed
      trivial
    · contradiction
    · cases failed
      trivial

/-! ## Runs of operations -/

/-- Operations lead from the start to the builder, which has at least the given
number of bindings. -/
structure LedFrom (start : Builder) (count : Nat) (builder : Builder) : Prop where
  operations : ∃ operations, builder = afterAll operations start
  bindings : count ≤ builder.bindings.length

variable {start : Builder} {count : Nat}

theorem LedFrom.reachable (led : LedFrom start count builder)
    (startReachable : Reachable catalog start) : Reachable catalog builder := by
  obtain ⟨operations, rfl⟩ := led.operations
  exact startReachable.afterAll operations

/-- No change takes a binding away. -/
theorem Change.length_bindings_le (change : Change builder next) :
    builder.bindings.length ≤ next.bindings.length := by
  rcases change with binds | fills
  · cases binds
    simp [withTable]
  · exact Nat.le_of_eq (congrArg List.length fills.bindings_eq.2).symm

theorem LedFrom.after (led : LedFrom start count builder) (operation : Operation) :
    LedFrom start count (Run.after operation.run builder) := by
  constructor
  · obtain ⟨operations, rfl⟩ := led.operations
    exact ⟨operations ++ [operation], (afterAll_append operations [operation] start).symm⟩
  · have kept : ∀ before next : Builder, Change before next →
        count ≤ before.bindings.length → count ≤ next.bindings.length :=
      fun _ _ change enough => Nat.le_trans enough change.length_bindings_le
    exact Run.kept_along kept (moves_operation operation builder) led.bindings

/-- A step that leads where an operation does is safe if it fails with
refusals. -/
theorem safe_of_operation {α : Type} {step : Build α} (startReachable : Reachable catalog start)
    (operation : Operation)
    (same : ∀ builder, Run.after operation.run builder = Run.after step builder)
    (refused : ∀ {builder error next}, Reachable catalog builder →
      count ≤ builder.bindings.length → step builder = .error error next →
        Refusal catalog error) :
    Run.Safe (LedFrom start count) (Refusal catalog) step := by
  intro before led
  refine ⟨same before ▸ led.after operation, ?_⟩
  intro error next failed
  exact refused (led.reachable startReachable) led.bindings failed

section Safe

variable (startReachable : Reachable catalog start)
include startReachable

theorem safe_addTable (tableName : Name) (asName : Option String) (optional : Bool) :
    Run.Safe (LedFrom start count) (Refusal catalog) (addTable tableName asName optional) :=
  safe_of_operation startReachable (.addTable tableName asName optional)
    (Run.after_bind_pure _ _) fun reachable _ => refusal_of_addTable reachable

theorem safe_addColumn (name : Name) (optional : Bool) :
    Run.Safe (LedFrom start count) (Refusal catalog) (addColumn name optional) :=
  safe_of_operation startReachable (.addColumn name optional)
    (Run.after_bind_pure _ _) fun reachable _ => refusal_of_addColumn reachable

theorem safe_addVar (v : Variable) (displayName : Option String) :
    Run.Safe (LedFrom start count) (Refusal catalog) (addVar v displayName) :=
  safe_of_operation startReachable (.addVar v displayName) (fun _ => rfl)
    fun _ _ => refusal_of_addVar

theorem safe_addComputed (expr : Expr) (displayName : String) :
    Run.Safe (LedFrom start count) (Refusal catalog) (addComputed expr displayName) :=
  safe_of_operation startReachable (.addComputed expr displayName)
    (Run.after_bind_pure _ _) fun _ _ => refusal_of_addComputed

theorem safe_addEach (names : List Name) :
    Run.Safe (LedFrom start count) (Refusal catalog) (addEach names) := by
  induction names with
  | nil => exact .pure _
  | cons name rest ih =>
      exact .bind (safe_addColumn startReachable name false) fun v =>
        .bind (safe_addVar startReachable v none) fun _ => ih

theorem safe_addAllColumns (pattern : Option Name) :
    Run.Safe (LedFrom start count) (Refusal catalog) (addAllColumns pattern) := by
  apply Run.Safe.bind .get
  intro builder
  cases targets : builder.starTargets pattern with
  | error error => exact .throw (refusal_of_starTargets targets)
  | ok names => exact safe_addEach startReachable _

theorem safe_addBindingFilter {id : Nat} (isThere : id < count) (condition : Expr) :
    Run.Safe (LedFrom start count) (Refusal catalog) (addBindingFilter id condition) := by
  apply safe_of_operation startReachable (.addBindingFilter id condition) fun _ => rfl
  intro builder error next reachable enough failed
  have missing := (addBindingFilter_eq_error reachable failed).1
  omega

end Safe

/-- An operation on a reachable builder fails with a refusal, except where it
addresses a binding that does not exist. -/
theorem refusal_of_operation (reachable : Reachable catalog builder) {operation : Operation}
    (failed : operation.run builder = .error error next) :
    Refusal catalog error ∨ ∃ id, error = .unknownBinding id := by
  have here : LedFrom builder 0 builder := ⟨⟨[], rfl⟩, Nat.zero_le _⟩
  have refused : ∀ {step : Build Unit}, Run.Safe (LedFrom builder 0) (Refusal catalog) step →
      step builder = .error error next → Refusal catalog error :=
    fun safe failed => (safe builder here).2 error next failed
  cases operation with
  | addTable name asName optional =>
      exact .inl (refused (.bind (safe_addTable reachable name asName optional) fun _ => .pure _)
        failed)
  | addColumn name optional =>
      exact .inl (refused (.bind (safe_addColumn reachable name optional) fun _ => .pure _) failed)
  | addAllColumns pattern => exact .inl (refused (safe_addAllColumns reachable pattern) failed)
  | addVar v displayName => exact .inl (refusal_of_addVar failed)
  | addComputed expr displayName =>
      exact .inl (refused (.bind (safe_addComputed reachable expr displayName) fun _ => .pure _)
        failed)
  | addBindingFilter id condition =>
      exact .inr ⟨id, (addBindingFilter_eq_error reachable failed).2⟩
  | addFilter condition => cases failed
  | addBind expr v => cases failed
  | setDistinct distinct => cases failed
  | addGroupBy key => cases failed
  | addHaving condition => cases failed
  | addOrderBy expr ascending => cases failed
  | setLimit limit => cases failed
  | setOffset offset => cases failed

end Builder

end TripleTables
