import Mathlib.Data.List.Nodup
import Mathlib.Logic.Relation
import TripleTables.Compile.Expression

/-!
# Runs of steps

A step of construction or of compilation takes a builder and gives a value or
an error, and the builder after it.  This module opens steps that are put
together from others: what a sequence does when it succeeds, and which
builders it leads to in either case.

`Moves change step` says that `step` makes only changes of the given kind, any
number of them.  Sequences inherit it, so an invariant of the single changes of
a builder is an invariant of whole compilations.  `Safe invariant allowed step`
says moreover which errors the step can give where the invariant holds.
-/

namespace TripleTables.Run

open Relation

variable {ε σ α β : Type}

/-! ## Sequences -/

/-- A sequence succeeds exactly when both of its parts do. -/
theorem bind_eq_ok_iff {first : EStateM ε σ α} {next : α → EStateM ε σ β} {before after : σ}
    {result : β} :
    (first >>= next) before = .ok result after ↔
      ∃ value middle, first before = .ok value middle ∧ next value middle = .ok result after := by
  simp only [bind, EStateM.bind]
  constructor
  · intro ran
    cases firstRun : first before with
    | ok value middle => exact ⟨value, middle, rfl, by simpa [firstRun] using ran⟩
    | error error middle => simp [firstRun] at ran
  · rintro ⟨value, middle, firstRun, nextRun⟩
    simp [firstRun, nextRun]

theorem bind_of_ok {first : EStateM ε σ α} {before middle : σ} {value : α}
    (ran : first before = .ok value middle) (next : α → EStateM ε σ β) :
    (first >>= next) before = next value middle := by
  simp [bind, EStateM.bind, ran]

theorem bind_of_error {first : EStateM ε σ α} {before middle : σ} {error : ε}
    (failed : first before = .error error middle) (next : α → EStateM ε σ β) :
    (first >>= next) before = .error error middle := by
  simp [bind, EStateM.bind, failed]

/-- A step that fails is not followed by anything. -/
@[simp]
theorem throw_bind (error : ε) (next : α → EStateM ε σ β) :
    (throw error >>= next) = throw error :=
  rfl

@[simp]
theorem throw_apply (error : ε) (before : σ) :
    (throw error : EStateM ε σ α) before = .error error before :=
  rfl

@[simp]
theorem pure_apply (value : α) (before : σ) :
    (pure value : EStateM ε σ α) before = .ok value before :=
  rfl

@[simp]
theorem get_bind_apply (next : σ → EStateM ε σ β) (before : σ) :
    (get >>= next) before = next before before :=
  rfl

@[simp]
theorem set_bind_apply (state before : σ) (next : PUnit → EStateM ε σ β) :
    (set state >>= next) before = next ⟨⟩ state :=
  rfl

@[simp]
theorem build_liftExcept_ok (value : α) :
    Builder.liftExcept (.ok value : Except QueryError α) = pure value :=
  rfl

@[simp]
theorem build_liftExcept_error (error : QueryError) :
    Builder.liftExcept (.error error : Except QueryError α) = throw error :=
  rfl

@[simp]
theorem liftExcept_error (error : CompileError) :
    Compile.liftExcept (.error error : Except CompileError α) = throw error :=
  rfl

/-- A value that does not depend on the builder leaves it alone. -/
theorem liftExcept_eq_ok_iff {result : Except CompileError α} {value : α}
    {before after : Builder} :
    Compile.liftExcept result before = .ok value after ↔ result = .ok value ∧ before = after := by
  cases result with
  | ok other =>
      constructor
      · rintro ⟨⟩
        exact ⟨rfl, rfl⟩
      · rintro ⟨⟨⟩, rfl⟩
        rfl
  | error error =>
      constructor
      · rintro ⟨⟩
      · rintro ⟨⟨⟩, _⟩

/-- A step of construction succeeds as a part of a compilation when it succeeds
by itself. -/
theorem ofBuild_eq_ok_iff {step : Build α} {value : α} {before after : Builder} :
    Compile.ofBuild step before = .ok value after ↔ step before = .ok value after := by
  simp only [Compile.ofBuild]
  cases step before with
  | ok other next => simp
  | error error next => simp

/-- What every change keeps holds at the end of a path of changes. -/
theorem kept_along {change : σ → σ → Prop} {invariant : σ → Prop}
    (kept : ∀ before next, change before next → invariant before → invariant next)
    {before next : σ} (path : ReflTransGen change before next) (holds : invariant before) :
    invariant next := by
  induction path with
  | refl => exact holds
  | tail _ last ih => exact kept _ _ last ih

/-! ## Computations without a state -/

section Except

variable {δ : Type} {first : Except ε α}

theorem bind_eq_ok_iff_of_except {next : α → Except ε β} {result : β} :
    first >>= next = .ok result ↔ ∃ value, first = .ok value ∧ next value = .ok result := by
  cases first with
  | error error => simp [bind, Except.bind]
  | ok value => simp [bind, Except.bind]

theorem map_eq_ok_iff {image : α → β} {result : β} :
    image <$> first = .ok result ↔ ∃ value, first = .ok value ∧ image value = result := by
  cases first with
  | error error => simp
  | ok value => simp

theorem mapError_eq_ok_iff {rename : ε → δ} {result : α} :
    first.mapError rename = .ok result ↔ first = .ok result := by
  cases first with
  | error error => simp [Except.mapError]
  | ok value => simp [Except.mapError]

theorem exists_bind_eq_ok_iff {next : α → Except ε β} :
    (∃ result, first >>= next = .ok result) ↔
      ∃ value, first = .ok value ∧ ∃ result, next value = .ok result := by
  cases first with
  | error error => simp [bind, Except.bind]
  | ok value => simp [bind, Except.bind]

theorem bind_eq_error_iff {next : α → Except ε β} {error : ε} :
    first >>= next = .error error ↔
      first = .error error ∨ ∃ value, first = .ok value ∧ next value = .error error := by
  cases first with
  | error error => simp [bind, Except.bind]
  | ok value => simp [bind, Except.bind]

theorem exists_map_eq_ok_iff {image : α → β} :
    (∃ result, image <$> first = .ok result) ↔ ∃ value, first = .ok value := by
  cases first with
  | error error => simp
  | ok value => simp

theorem eq_ok_unit_iff {check : Except ε Unit} :
    check = .ok () ↔ ∃ result, check = .ok result := by
  cases check with
  | error error => simp
  | ok result => simp

/-- A list of checks passes exactly when every check does. -/
theorem forM_eq_ok_iff {check : α → Except ε Unit} {values : List α} :
    values.forM check = .ok () ↔ ∀ value ∈ values, check value = .ok () := by
  induction values with
  | nil => simp [pure, Except.pure]
  | cons value rest ih =>
      rw [List.forall_mem_cons, ← ih]
      change (check value >>= fun _ => rest.forM check) = .ok () ↔ _
      cases check value with
      | error error => simp [bind, Except.bind]
      | ok _ => simp [bind, Except.bind]

/-- A list of checks fails with what one of them fails with. -/
theorem exists_of_forM_eq_error {check : α → Except ε Unit} {values : List α} {error : ε}
    (failed : values.forM check = .error error) :
    ∃ value ∈ values, check value = .error error := by
  induction values with
  | nil => cases failed
  | cons value rest ih =>
      change (check value >>= fun _ => rest.forM check) = .error error at failed
      rcases bind_eq_error_iff.mp failed with here | ⟨_, _, later⟩
      · exact ⟨value, List.mem_cons_self, here⟩
      · obtain ⟨other, member, there⟩ := ih later
        exact ⟨other, List.mem_cons_of_mem _ member, there⟩

/-- A list of steps succeeds exactly when every step does. -/
theorem exists_mapM_eq_ok_iff {step : α → Except ε β} {values : List α} :
    (∃ results, values.mapM step = .ok results) ↔
      ∀ value ∈ values, ∃ result, step value = .ok result := by
  induction values with
  | nil => simp [pure, Except.pure]
  | cons value rest ih =>
      rw [List.forall_mem_cons, ← ih, List.mapM_cons, exists_bind_eq_ok_iff]
      constructor
      · rintro ⟨result, here, others⟩
        exact ⟨⟨result, here⟩, exists_map_eq_ok_iff.mp others⟩
      · rintro ⟨⟨result, here⟩, others⟩
        exact ⟨result, here, exists_map_eq_ok_iff.mpr others⟩

/-- A list of steps fails with what one of them fails with. -/
theorem exists_of_mapM_eq_error {step : α → Except ε β} {values : List α} {error : ε}
    (failed : values.mapM step = .error error) : ∃ value ∈ values, step value = .error error := by
  induction values with
  | nil => cases failed
  | cons value rest ih =>
      rw [List.mapM_cons] at failed
      rcases bind_eq_error_iff.mp failed with here | ⟨_, _, others⟩
      · exact ⟨value, List.mem_cons_self, here⟩
      · rcases bind_eq_error_iff.mp others with later | ⟨_, _, done⟩
        · obtain ⟨other, member, there⟩ := ih later
          exact ⟨other, List.mem_cons_of_mem _ member, there⟩
        · cases done

end Except

/-! ## Two results -/

/-- Both results are the same error, or values that are related. -/
inductive SameResult {ε α β : Type} (rel : α → β → Prop) : Except ε α → Except ε β → Prop
  | ok {value : α} {other : β} (related : rel value other) : SameResult rel (.ok value) (.ok other)
  | error (error : ε) : SameResult rel (.error error) (.error error)

namespace SameResult

variable {γ δ : Type} {rel : α → β → Prop} {first : Except ε α} {second : Except ε β}

theorem bind {further : γ → δ → Prop} {next : α → Except ε γ} {other : β → Except ε δ}
    (early : SameResult rel first second)
    (late : ∀ value image, rel value image → SameResult further (next value) (other image)) :
    SameResult further (first >>= next) (second >>= other) := by
  cases early with
  | ok related => exact late _ _ related
  | error error => exact .error error

theorem mapError (both : SameResult rel first second) (rename : ε → γ) :
    SameResult rel (first.mapError rename) (second.mapError rename) := by
  cases both with
  | ok related => exact .ok related
  | error error => exact .error (rename error)

/-- What is known of the first value is known of it beside the second. -/
theorem and {further : α → β → Prop} (both : SameResult rel first second)
    (known : ∀ value image, first = .ok value → rel value image → further value image) :
    SameResult further first second := by
  cases both with
  | ok related => exact .ok (known _ _ rfl related)
  | error error => exact .error error

theorem of_map_eq {image : α → β} {other : Except ε α} (same : image <$> first = image <$> other) :
    SameResult (fun value another => image value = image another) first other := by
  cases first with
  | error error =>
      cases other with
      | error otherError =>
          cases same
          exact .error error
      | ok value => cases same
  | ok value =>
      cases other with
      | error error => cases same
      | ok another => exact .ok (Except.ok.inj same)

end SameResult

/-! ## Where a step leads -/

/-- The state after a step, also when the step fails. -/
def after (step : EStateM ε σ α) (before : σ) : σ :=
  match step before with
  | .ok _ next => next
  | .error _ next => next

theorem after_of_ok {step : EStateM ε σ α} {before next : σ} {value : α}
    (ran : step before = .ok value next) : after step before = next := by
  simp [after, ran]

theorem after_of_error {step : EStateM ε σ α} {before next : σ} {error : ε}
    (ran : step before = .error error next) : after step before = next := by
  simp [after, ran]

/-- A step that only makes something of a value leads where the value came
from. -/
theorem after_bind_pure (step : EStateM ε σ α) (result : α → β) (before : σ) :
    after (step >>= fun value => pure (result value)) before = after step before := by
  cases ran : step before with
  | ok value next => simp [after, Bind.bind, EStateM.bind, ran]
  | error error next => simp [after, Bind.bind, EStateM.bind, ran]

/-- The step makes only changes of the given kind, any number of them. -/
def Moves (change : σ → σ → Prop) (step : EStateM ε σ α) : Prop :=
  ∀ before, ReflTransGen change before (after step before)

namespace Moves

variable {change other : σ → σ → Prop}

theorem of_ok {step : EStateM ε σ α} {before next : σ} {value : α} (moves : Moves change step)
    (ran : step before = .ok value next) : ReflTransGen change before next := by
  have path := moves before
  rwa [after_of_ok ran] at path

theorem pure (value : α) : Moves change (pure value : EStateM ε σ α) :=
  fun _ => .refl

theorem throw (error : ε) : Moves change (throw error : EStateM ε σ α) :=
  fun _ => .refl

theorem get : Moves change (get : EStateM ε σ σ) :=
  fun _ => .refl

theorem bind {first : EStateM ε σ α} {next : α → EStateM ε σ β} (firstMoves : Moves change first)
    (nextMoves : ∀ value, Moves change (next value)) : Moves change (first >>= next) := by
  intro before
  have path := firstMoves before
  simp only [after, Bind.bind, EStateM.bind] at path ⊢
  cases firstRun : first before with
  | ok value middle =>
      simp only [firstRun] at path ⊢
      exact path.trans (nextMoves value middle)
  | error error middle =>
      simp only [firstRun] at path ⊢
      exact path

theorem forM {step : α → EStateM ε σ PUnit} (stepMoves : ∀ value, Moves change (step value))
    (values : List α) : Moves change (values.forM step) := by
  induction values with
  | nil => exact pure _
  | cons value rest ih => exact bind (stepMoves value) fun _ => ih

theorem optionForM {step : α → EStateM ε σ PUnit}
    (stepMoves : ∀ value, Moves change (step value)) (value : Option α) :
    Moves change (value.forM step) := by
  cases value with
  | none => exact pure _
  | some value => exact stepMoves value

theorem mono {step : EStateM ε σ α} (moves : Moves change step)
    (included : ∀ before next, change before next → other before next) : Moves other step :=
  fun before => ReflTransGen.mono included before _ (moves before)

end Moves

/-- A computation that does not touch the builder makes no change. -/
theorem moves_liftExcept {change : Builder → Builder → Prop}
    (result : Except CompileError α) : Moves change (Compile.liftExcept result) := by
  cases result with
  | ok value => exact Moves.pure value
  | error error => exact Moves.throw error

/-- A step of construction changes as much as a part of a compilation. -/
theorem moves_ofBuild {change : Builder → Builder → Prop} {step : Build α}
    (moves : Moves change step) : Moves change (Compile.ofBuild step) := by
  intro before
  have path := moves before
  simp only [after, Compile.ofBuild] at path ⊢
  cases ran : step before with
  | ok value next => simpa [ran] using path
  | error error next => simpa [ran] using path

/-! ## What a step keeps -/

/-- Where the invariant holds, it still holds after the step if the step
succeeds. -/
def Keeps (invariant : σ → Prop) (step : EStateM ε σ α) : Prop :=
  ∀ before value next, invariant before → step before = .ok value next → invariant next

namespace Keeps

variable {invariant : σ → Prop}

theorem pure (value : α) : Keeps invariant (pure value : EStateM ε σ α) := by
  intro before _ next holds ran
  cases ran
  exact holds

theorem bind {first : EStateM ε σ α} {following : α → EStateM ε σ β}
    (early : Keeps invariant first) (late : ∀ value, Keeps invariant (following value)) :
    Keeps invariant (first >>= following) := by
  intro before _ next holds ran
  obtain ⟨value, middle, firstRan, restRan⟩ := bind_eq_ok_iff.mp ran
  exact late value middle _ next (early before value middle holds firstRan) restRan

theorem forM {step : α → EStateM ε σ PUnit} {values : List α}
    (each : ∀ value ∈ values, Keeps invariant (step value)) :
    Keeps invariant (values.forM step) := by
  induction values with
  | nil => exact pure _
  | cons value rest ih =>
      exact bind (each value List.mem_cons_self) fun _ =>
        ih fun other member => each other (List.mem_cons_of_mem _ member)

theorem optionForM {step : α → EStateM ε σ PUnit} {value : Option α}
    (each : ∀ present ∈ value, Keeps invariant (step present)) :
    Keeps invariant (value.forM step) := by
  cases value with
  | none => exact pure _
  | some present => exact each present rfl

end Keeps

/-- A part is set whose new value is good. -/
theorem keeps_modify {invariant : Builder → Prop} {change : Builder → Builder}
    (kept : ∀ builder, invariant builder → invariant (change builder)) :
    Keeps invariant (Compile.ofBuild (modify change)) := by
  intro before _ next holds ran
  have changed : next = change before := by
    cases ran
    rfl
  rw [changed]
  exact kept before holds

/-! ## How a step can fail -/

/-- Where the invariant holds, it still holds after the step, and the step
fails only with errors that are allowed. -/
def Safe (invariant : σ → Prop) (allowed : ε → Prop) (step : EStateM ε σ α) : Prop :=
  ∀ before, invariant before → invariant (after step before) ∧
    ∀ error next, step before = .error error next → allowed error

namespace Safe

variable {invariant : σ → Prop} {allowed : ε → Prop}

theorem pure (value : α) : Safe invariant allowed (pure value : EStateM ε σ α) := by
  intro before holds
  refine ⟨holds, ?_⟩
  rintro _ _ ⟨⟩

theorem throw {error : ε} (isAllowed : allowed error) :
    Safe invariant allowed (throw error : EStateM ε σ α) := by
  intro before holds
  refine ⟨holds, ?_⟩
  rintro _ _ ⟨⟩
  exact isAllowed

theorem get : Safe invariant allowed (get : EStateM ε σ σ) := by
  intro before holds
  refine ⟨holds, ?_⟩
  rintro _ _ ⟨⟩

theorem bind {first : EStateM ε σ α} {next : α → EStateM ε σ β}
    (firstSafe : Safe invariant allowed first)
    (nextSafe : ∀ value, Safe invariant allowed (next value)) :
    Safe invariant allowed (first >>= next) := by
  intro before holds
  obtain ⟨kept, refused⟩ := firstSafe before holds
  simp only [after, Bind.bind, EStateM.bind] at kept ⊢
  cases firstRun : first before with
  | ok value middle =>
      rw [firstRun] at kept
      exact nextSafe value middle kept
  | error error middle =>
      rw [firstRun] at kept
      refine ⟨kept, ?_⟩
      rintro _ _ ⟨⟩
      exact refused error middle firstRun

theorem forM {step : α → EStateM ε σ PUnit} {values : List α}
    (stepSafe : ∀ value ∈ values, Safe invariant allowed (step value)) :
    Safe invariant allowed (values.forM step) := by
  induction values with
  | nil => exact pure _
  | cons value rest ih =>
      exact bind (stepSafe value List.mem_cons_self) fun _ =>
        ih fun other member => stepSafe other (List.mem_cons_of_mem _ member)

theorem optionForM {step : α → EStateM ε σ PUnit}
    (stepSafe : ∀ value, Safe invariant allowed (step value)) (value : Option α) :
    Safe invariant allowed (value.forM step) := by
  cases value with
  | none => exact pure _
  | some value => exact stepSafe value

end Safe

theorem safe_liftExcept {invariant : Builder → Prop} {allowed : CompileError → Prop}
    {result : Except CompileError α} (isAllowed : ∀ error, result = .error error → allowed error) :
    Safe invariant allowed (Compile.liftExcept result) := by
  cases result with
  | ok value => exact Safe.pure value
  | error error => exact Safe.throw (isAllowed error rfl)

/-- A step of construction is as safe as a part of a compilation. -/
theorem safe_ofBuild {invariant : Builder → Prop} {refused : QueryError → Prop}
    {allowed : CompileError → Prop} (included : ∀ error, refused error → allowed (.query error))
    {step : Build α} (safe : Safe invariant refused step) :
    Safe invariant allowed (Compile.ofBuild step) := by
  intro before holds
  have outcome := safe before holds
  simp only [after, Compile.ofBuild] at outcome ⊢
  cases ran : step before with
  | ok value next =>
      rw [ran] at outcome
      refine ⟨outcome.1, ?_⟩
      rintro _ _ ⟨⟩
  | error error next =>
      rw [ran] at outcome
      refine ⟨outcome.1, ?_⟩
      rintro _ _ ⟨⟩
      exact included error (outcome.2 error next rfl)

/-! ## Checking what a computation gives -/

section Checks

variable {outcome : Except ε α} {ended : EStateM.Result ε σ α}

instance decidableExistsOk {check : α → Prop} [DecidablePred check] :
    Decidable (∃ result, outcome = .ok result ∧ check result) :=
  match outcome with
  | .ok result => decidable_of_iff (check result) (by simp)
  | .error _ => isFalse (by simp)

instance decidableExistsError {check : ε → Prop} [DecidablePred check] :
    Decidable (∃ error, outcome = .error error ∧ check error) :=
  match outcome with
  | .ok _ => isFalse (by simp)
  | .error error => decidable_of_iff (check error) (by simp)

instance decidableExistsEnd [DecidableEq α] {value : α} {check : σ → Prop}
    [DecidablePred check] : Decidable (∃ next, ended = .ok value next ∧ check next) :=
  match ended with
  | .ok other next => decidable_of_iff (other = value ∧ check next) (by simp)
  | .error _ _ => isFalse (by simp)

instance decidableExistsFailure {check : ε → Prop} [DecidablePred check] :
    Decidable (∃ error next, ended = .error error next ∧ check error) :=
  match ended with
  | .ok _ _ => isFalse (by simp)
  | .error error _ => decidable_of_iff (check error) (by simp)

end Checks

end TripleTables.Run
