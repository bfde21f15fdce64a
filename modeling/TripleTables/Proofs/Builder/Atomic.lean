import TripleTables.Proofs.Builder.Failures

/-!
# Operations that fail change nothing

An operation on a builder looks at the builder, makes its checks and only then
changes something.  `Run.Atomic` says of a step that it changes nothing where it
fails; a step is atomic if all that comes before its last part is steady, that is,
changes nothing in any case.  Binding a table, registering a column, showing a
variable or a value and adding the filter of a binding are atomic in this sense, and
so a run of such operations leads where those of them lead that succeed.

The group of a left-joined table is looked up among the blocks while its column or
its filter is placed.  In a reachable builder this look never fails.
-/

namespace TripleTables

open TripleTables.Graph

namespace Run

variable {ε σ α β : Type}

/-- The step changes nothing, whether it succeeds or fails. -/
def Steady (step : EStateM ε σ α) : Prop :=
  ∀ before, after step before = before

/-- The step changes nothing where it fails. -/
def Atomic (step : EStateM ε σ α) : Prop :=
  ∀ before error next, step before = .error error next → next = before

theorem Steady.get : Steady (get : EStateM ε σ σ) :=
  fun _ => rfl

theorem Steady.throw (error : ε) : Steady (throw error : EStateM ε σ α) :=
  fun _ => rfl

theorem Steady.atomic {step : EStateM ε σ α} (steady : Steady step) : Atomic step := by
  intro before error next failed
  rw [← after_of_error failed, steady]

theorem steady_liftExcept (result : Except QueryError α) :
    Steady (Builder.liftExcept result) := by
  intro before
  cases result with
  | ok value => rfl
  | error error => rfl

namespace Atomic

/-- A change after which nothing can fail. -/
theorem set (state : σ) (value : α) :
    Atomic (do set state; return value : EStateM ε σ α) := by
  intro before error next failed
  cases failed

theorem pure (value : α) : Atomic (pure value : EStateM ε σ α) := by
  intro before error next failed
  cases failed

theorem modify (change : σ → σ) : Atomic (modify change : EStateM ε σ PUnit) := by
  intro before error next failed
  cases failed

/-- Looking and checking may come before an atomic step. -/
theorem bind {first : EStateM ε σ α} {following : α → EStateM ε σ β} (steady : Steady first)
    (atomic : ∀ value, Atomic (following value)) : Atomic (first >>= following) := by
  intro before error next failed
  have unchanged := steady before
  simp only [Bind.bind, EStateM.bind] at failed
  cases ran : first before with
  | error other middle =>
      rw [ran] at failed
      cases failed
      rwa [after_of_error ran] at unchanged
  | ok value middle =>
      rw [ran] at failed
      rw [after_of_ok ran] at unchanged
      rw [atomic value middle error next failed, unchanged]

theorem bind_pure {step : EStateM ε σ α} (atomic : Atomic step) (result : α → β) :
    Atomic (step >>= fun value => Pure.pure (result value)) := by
  intro before error next failed
  simp only [Bind.bind, EStateM.bind] at failed
  cases ran : step before with
  | ok value middle =>
      rw [ran] at failed
      cases failed
  | error other middle =>
      rw [ran] at failed
      cases failed
      exact atomic before error next ran

end Atomic

end Run

namespace Builder

open Run (Atomic Steady steady_liftExcept)

/-! ## The single operations -/

theorem atomic_addTable (name : Name) (asName : Option String) (optional : Bool) :
    Atomic (addTable name asName optional) := by
  intro builder error next failed
  -- The binding is looked up after the change, so it has to be known that it is found.
  rcases addTable_spec name asName optional builder with ⟨_, _, ran⟩ | ⟨_, _, _, _, _, ran⟩
  · rw [ran] at failed
    cases failed
    rfl
  · rw [ran] at failed
    cases failed

theorem atomic_registerColumn (place : Nat × Nat) (optional : Bool) :
    Atomic (registerColumn place optional) :=
  .bind .get fun _ => .bind (steady_liftExcept _) fun _ => .bind (steady_liftExcept _) fun _ =>
    .bind (steady_liftExcept _) fun _ => .bind (steady_liftExcept _) fun _ => .set _ _

theorem atomic_addColumn (name : Name) (optional : Bool) : Atomic (addColumn name optional) := by
  refine .bind .get fun builder => .bind (steady_liftExcept _) fun place => ?_
  split
  · exact .pure _
  · exact atomic_registerColumn place optional

theorem atomic_addVar (v : Variable) (displayName : Option String) :
    Atomic (addVar v displayName) :=
  .bind .get fun _ => .bind (steady_liftExcept _) fun _ => .set _ ()

theorem atomic_addComputed (expr : Expr) (displayName : String) :
    Atomic (addComputed expr displayName) := by
  refine .bind .get fun builder => ?_
  dsimp only
  split
  · exact (Steady.throw _).atomic
  · exact .set _ _

theorem atomic_addBindingFilter (id : Nat) (condition : Expr) :
    Atomic (addBindingFilter id condition) := by
  refine .bind .get fun builder => .bind (steady_liftExcept _) fun binding => ?_
  split
  · exact .bind (steady_liftExcept _) fun group => .set _ ()
  · exact .modify _

/-- An operation on a reachable builder that fails leaves the whole builder as it
was.  The groups that the bindings refer to are always found, so no operation fails
on the way to one of them. -/
theorem Reachable.unchanged_of_error {catalog : Catalog} {builder : Builder}
    (reachable : Reachable catalog builder) :
    (∀ error next,
      (∀ name asName optional,
        addTable name asName optional builder = .error error next → next = builder) ∧
      (∀ name optional, addColumn name optional builder = .error error next → next = builder) ∧
      (∀ v displayName, addVar v displayName builder = .error error next → next = builder) ∧
      (∀ expr displayName,
        addComputed expr displayName builder = .error error next → next = builder) ∧
      ∀ id condition,
        addBindingFilter id condition builder = .error error next → next = builder) ∧
    ∀ binding ∈ builder.bindings, ∀ position ∈ binding.group,
      ∃ group, builder.groupAt position = .ok group := by
  constructor
  · intro error next
    exact ⟨fun name asName optional => atomic_addTable name asName optional builder error next,
      fun name optional => atomic_addColumn name optional builder error next,
      fun v displayName => atomic_addVar v displayName builder error next,
      fun expr displayName => atomic_addComputed expr displayName builder error next,
      fun id condition => atomic_addBindingFilter id condition builder error next⟩
  · intro binding isBound position grouped
    obtain ⟨i, bound⟩ := List.mem_iff_getElem?.mp isBound
    exact exists_groupAt_of_isGroup (reachable.consistent.groups bound grouped)

/-- A table is bound under one alias and left-joined to itself under another, and a
number is shown. -/
def selfJoined : List Operation :=
  [ .addTable { table := some "foo" } (some "a") false
  , .addTable { table := some "foo" } (some "b") true
  , .addComputed (.integer 1) "n" ]

/-- Each operation is refused once, and the builder stays as it is. -/
theorem unchanged_selfJoined :
    ∃ catalog builder, oneTable.assemble = .ok catalog ∧
      builder = afterAll selfJoined { catalog } ∧
      addTable { table := some "foo" } (some "a") true builder =
        .error (.duplicateAlias "a") builder ∧
      addColumn { column := some "x" } false builder =
        .error (.ambiguous ⟨{ column := some "x" }, 2⟩) builder ∧
      addVar ⟨"v"⟩ (some "n") builder = .error (.duplicateProjection "n") builder ∧
      addComputed (.integer 2) "n" builder = .error (.duplicateProjection "n") builder ∧
      addBindingFilter 2 (.integer 1) builder = .error (.unknownBinding 2) builder ∧
      ∃ group, builder.groupAt 0 = .ok group := by
  have refused : ∀ catalog, oneTable.assemble = .ok catalog →
      (∃ error next, addTable { table := some "foo" } (some "a") true
        (afterAll selfJoined { catalog }) = .error error next ∧ error = .duplicateAlias "a") ∧
      (∃ error next, addColumn { column := some "x" } false
        (afterAll selfJoined { catalog }) = .error error next ∧
          error = .ambiguous ⟨{ column := some "x" }, 2⟩) ∧
      (∃ error next, addVar ⟨"v"⟩ (some "n")
        (afterAll selfJoined { catalog }) = .error error next ∧ error = .duplicateProjection "n") ∧
      (∃ error next, addComputed (.integer 2) "n"
        (afterAll selfJoined { catalog }) = .error error next ∧ error = .duplicateProjection "n") ∧
      (∃ error next, addBindingFilter 2 (.integer 1)
        (afterAll selfJoined { catalog }) = .error error next ∧ error = .unknownBinding 2) ∧
      ∃ binding ∈ (afterAll selfJoined { catalog }).bindings, binding.group = some 0 := by
    rintro _ ⟨⟩
    decide +kernel
  obtain ⟨catalog, assembled⟩ : ∃ catalog, oneTable.assemble = .ok catalog := ⟨_, rfl⟩
  have facts := refused catalog assembled
  have reachable := (@Reachable.empty catalog none false).afterAll selfJoined
  obtain ⟨builder, led⟩ : ∃ builder, builder = afterAll selfJoined { catalog } := ⟨_, rfl⟩
  rw [← led] at facts reachable
  obtain ⟨⟨_, _, table, rfl⟩, ⟨_, _, column, rfl⟩, ⟨_, _, shown, rfl⟩, ⟨_, _, computed, rfl⟩,
    ⟨_, _, filter, rfl⟩, binding, isBound, grouped⟩ := facts
  obtain ⟨unchanged, found⟩ := reachable.unchanged_of_error
  refine ⟨catalog, builder, assembled, led, ?_, ?_, ?_, ?_, ?_, found binding isBound 0 grouped⟩
  · have same := (unchanged _ _).1 _ _ _ table
    rwa [same] at table
  · have same := (unchanged _ _).2.1 _ _ column
    rwa [same] at column
  · have same := (unchanged _ _).2.2.1 _ _ shown
    rwa [same] at shown
  · have same := (unchanged _ _).2.2.2.1 _ _ computed
    rwa [same] at computed
  · have same := (unchanged _ _).2.2.2.2 _ _ filter
    rwa [same] at filter

/-! ## Runs -/

/-- The operation is one change with its checks.  Showing all columns is a sequence
of others. -/
def Operation.isSingle : Operation → Bool
  | .addAllColumns _ => false
  | _ => true

theorem atomic_of_isSingle {operation : Operation} (single : operation.isSingle = true) :
    Atomic operation.run := by
  cases operation with
  | addTable name asName optional => exact (atomic_addTable name asName optional).bind_pure _
  | addColumn name optional => exact (atomic_addColumn name optional).bind_pure _
  | addAllColumns pattern => cases single
  | addVar v displayName => exact atomic_addVar v displayName
  | addComputed expr displayName => exact (atomic_addComputed expr displayName).bind_pure _
  | addBindingFilter id condition => exact atomic_addBindingFilter id condition
  | addFilter condition => exact .modify _
  | addBind expr v => exact .modify _
  | setDistinct distinct => exact .modify _
  | addGroupBy key => exact .modify _
  | addHaving condition => exact .modify _
  | addOrderBy expr ascending => exact .modify _
  | setLimit limit => exact .modify _
  | setOffset offset => exact .modify _

/-- The operations of a run that succeed in their turn. -/
def succeeding : List Operation → Builder → List Operation
  | [], _ => []
  | operation :: rest, builder =>
      match operation.run builder with
      | .ok _ next => operation :: succeeding rest next
      | .error _ next => succeeding rest next

/-- What fails leaves no trace: a run of single operations leads where those of them
lead that succeed. -/
theorem afterAll_succeeding {operations : List Operation}
    (single : ∀ operation ∈ operations, operation.isSingle = true) (builder : Builder) :
    afterAll (succeeding operations builder) builder = afterAll operations builder := by
  induction operations generalizing builder with
  | nil => rfl
  | cons operation rest ih =>
      obtain ⟨firstSingle, restSingle⟩ := List.forall_mem_cons.mp single
      rw [succeeding]
      cases ran : operation.run builder with
      | ok value next =>
          have led : Run.after operation.run builder = next := Run.after_of_ok ran
          simp only [afterAll, List.foldl_cons, led]
          exact ih restSingle next
      | error error next =>
          have same : next = builder := atomic_of_isSingle firstSingle _ _ _ ran
          have led : Run.after operation.run builder = builder := by
            rw [Run.after_of_error ran, same]
          simp only [same, afterAll, List.foldl_cons, led]
          exact ih restSingle builder

end Builder

end TripleTables
