import TripleTables.Proofs.Builder.Resolution
import TripleTables.Proofs.Compile.Mentions
import TripleTables.Proofs.Compile.Outcome

/-!
# Expressions and what was registered before them

What an expression is compiled to depends on the tables that are bound and, where
a name may mean one, on the result columns.  It does not depend on the columns
that have been registered, nor on whether new ones are wanted as optional.

The columns that a compilation registers are the ones that the expression
mentions and that were not registered before, in the order in which they are
first mentioned.  So nothing is left to register when the same expression is
compiled once more.
-/

namespace TripleTables

open Relation (ReflTransGen)
open TripleTables.Graph

namespace Run

variable {ε σ α β : Type} {step : EStateM ε σ α} {following : α → EStateM ε σ β}
  {before middle next : σ} {value : α} {error : ε}

/-- What a step answers: its value or its error, without the state after it. -/
def answer (step : EStateM ε σ α) (before : σ) : Except ε α :=
  Prod.fst <$> outcome step before

theorem answer_of_ok (ran : step before = .ok value next) : answer step before = .ok value := by
  rw [answer, outcome_of_ok ran]
  rfl

theorem answer_of_error (ran : step before = .error error next) :
    answer step before = .error error := by
  rw [answer, outcome_of_error ran]
  rfl

theorem exists_of_answer_ok (answered : answer step before = .ok value) :
    ∃ next, step before = .ok value next := by
  cases ran : step before with
  | ok other next =>
      cases (answer_of_ok ran).symm.trans answered
      exact ⟨next, rfl⟩
  | error error next => cases (answer_of_error ran).symm.trans answered

theorem exists_of_answer_error (answered : answer step before = .error error) :
    ∃ next, step before = .error error next := by
  cases ran : step before with
  | ok value next => cases (answer_of_ok ran).symm.trans answered
  | error other next =>
      cases (answer_of_error ran).symm.trans answered
      exact ⟨next, rfl⟩

theorem answer_bind_of_ok (ran : step before = .ok value middle) :
    answer (step >>= following) before = answer (following value) middle := by
  rw [answer, outcome_bind]
  simp only [Bind.bind, StateT.bind, Except.bind, outcome_of_ok ran]
  rfl

theorem answer_bind_of_error (ran : step before = .error error middle) :
    answer (step >>= following) before = .error error := by
  rw [answer, outcome_bind]
  simp only [Bind.bind, StateT.bind, Except.bind, outcome_of_error ran]
  rfl

end Run

namespace Builder

variable {builder next first second : Builder} {aliases : Bool}

/-! ## Builders that look the same -/

/-- The bound tables with the names that they are given, in order. -/
def scope (builder : Builder) : List (Name × Table) :=
  builder.bindings.map fun binding => (binding.name, binding.table)

/-- An expression sees the same from both builders: the same tables and, where
it can name them, the same result columns. -/
structure SameView (aliases : Bool) (first second : Builder) : Prop where
  consistent : Consistent first
  otherConsistent : Consistent second
  scope : first.scope = second.scope
  shown : aliases = true → first.projections = second.projections

namespace SameView

theorem symm (view : SameView aliases first second) : SameView aliases second first :=
  ⟨view.otherConsistent, view.consistent, view.scope.symm, fun asked => (view.shown asked).symm⟩

/-- Registered columns are not seen. -/
theorem register (view : SameView aliases first second) (registers : Registers first next) :
    SameView aliases next second := by
  have consistent := view.consistent.column registers
  cases registers
  exact ⟨consistent, view.otherConsistent, view.scope, view.shown⟩

theorem forward (view : SameView aliases first second)
    (path : ReflTransGen Registers first next) : SameView aliases next second := by
  induction path with
  | refl => exact view
  | tail _ registers ih => exact ih.register registers

theorem along {other : Builder} (view : SameView aliases first second)
    (path : ReflTransGen Registers first next) (otherPath : ReflTransGen Registers second other) :
    SameView aliases next other :=
  ((view.forward path).symm.forward otherPath).symm

/-- The bindings of two builders that look the same have the same names and
tables. -/
theorem exists_binding (view : SameView aliases first second) {i : Nat} {binding : Binding}
    (bound : first.bindings[i]? = some binding) :
    ∃ other, second.bindings[i]? = some other ∧ other.name = binding.name ∧
      other.table = binding.table := by
  have seen : second.scope[i]? = some (binding.name, binding.table) := by
    rw [← view.scope, Builder.scope, List.getElem?_map, bound]
    rfl
  rw [Builder.scope, List.getElem?_map] at seen
  obtain ⟨other, isOther, same⟩ := Option.map_eq_some_iff.mp seen
  exact ⟨other, isOther, congrArg Prod.fst same, congrArg Prod.snd same⟩

end SameView

/-- The candidates of each binding, from what is seen of it. -/
theorem Consistent.map_bindingCandidates (consistent : Consistent builder) :
    builder.bindings.map bindingCandidates =
      builder.scope.mapIdx fun i entry => bindingCandidates ⟨i, entry.1, entry.2, none⟩ := by
  apply List.ext_getElem
  · simp [scope]
  · intro i inside _
    rw [List.length_map] at inside
    have isId : builder.bindings[i].id = i := consistent.ids (List.getElem?_eq_getElem inside)
    simp [scope, bindingCandidates, Binding.columnNames, Binding.columnName, isId]

theorem SameView.resolveColumn (view : SameView aliases first second) (name : Name) :
    first.resolveColumn name = second.resolveColumn name := by
  have candidates : first.candidates = second.candidates := by
    rw [Builder.candidates, Builder.candidates, List.flatMap_def, List.flatMap_def,
      view.consistent.map_bindingCandidates, view.otherConsistent.map_bindingCandidates,
      view.scope]
  simp only [Builder.resolveColumn, candidates]

/-! ## Column names -/

/-- The answer to a name that means a column: whether that column has been
registered does not matter. -/
theorem Consistent.answer_addColumn (consistent : Consistent builder) {name : Name}
    {place : Nat × Nat} {binding : Binding} {column : Column}
    (resolved : builder.resolveColumn name = .ok place)
    (bound : builder.bindings[place.1]? = some binding)
    (declared : binding.table.columns[place.2]? = some column) (optional : Bool) :
    Run.answer (addColumn name optional) builder =
      ((fun _ => binding.columnVariable column) <$>
        columnTriple binding column (binding.columnVariable column)).mapError .malformed := by
  rcases consistent.addColumn_eq resolved bound declared optional with
    ⟨error, unfilled, failed⟩ | ⟨triple, next, _, filled, ran, _⟩
  · rw [Run.answer_of_error failed, unfilled]
    rfl
  · rw [Run.answer_of_ok ran, filled]
    rfl

/-- A column name is answered by what is seen of the builder. -/
theorem SameView.answer_addColumn (view : SameView aliases first second) (name : Name)
    (optional wish : Bool) :
    Run.answer (addColumn name optional) first = Run.answer (addColumn name wish) second := by
  have same := view.resolveColumn name
  cases resolved : first.resolveColumn name with
  | error error =>
      have failed := addColumn_of_unresolved resolved optional
      have otherFailed := addColumn_of_unresolved (same.symm.trans resolved) wish
      rw [Run.answer_of_error failed, Run.answer_of_error otherFailed]
  | ok place =>
      obtain ⟨binding, column, bound, declared⟩ := view.consistent.exists_of_resolveColumn resolved
      obtain ⟨other, isOther, sameName, sameTable⟩ := view.exists_binding bound
      rw [← sameTable] at declared
      have sameVariable : other.columnVariable column = binding.columnVariable column := by
        simp only [Binding.columnVariable, Binding.columnName, sameName]
      have sameTriple : ∀ v, columnTriple other column v = columnTriple binding column v := by
        intro v
        simp only [columnTriple, Binding.subject, Binding.columnName, sameName]
      rw [view.consistent.answer_addColumn resolved bound (sameTable ▸ declared) optional,
        view.otherConsistent.answer_addColumn (same.symm.trans resolved) isOther declared wish,
        sameVariable, sameTriple]

/-! ## The order of registration -/

/-- The places of the columns that some names mean and that have not been
registered, each once and in the order of the first names that mean them. -/
def newPlaces (builder : Builder) (names : List Name) : List (Nat × Nat) :=
  ((builder.placesOf names).filter fun place => place ∉ builder.places).eraseDups

theorem mem_newPlaces_iff {names : List Name} {place : Nat × Nat} :
    place ∈ builder.newPlaces names ↔
      place ∈ builder.placesOf names ∧ place ∉ builder.places := by
  simp [newPlaces]

/-- The new places of names are appended to those of the registered columns. -/
structure Appending (names : List Name) (builder next : Builder) : Prop where
  consistent : Consistent next
  bindings : next.bindings = builder.bindings
  places : next.places = builder.places ++ builder.newPlaces names

namespace Appending

variable {middle : Builder} {names more : List Name}

theorem refl (consistent : Consistent builder) : Appending [] builder builder :=
  ⟨consistent, rfl, by simp [newPlaces, placesOf]⟩

theorem trans (early : Appending names builder middle) (late : Appending more middle next) :
    Appending (names ++ more) builder next := by
  -- What the earlier names have registered is not new for the later ones.
  have rest : ((builder.placesOf more).filter fun place => place ∉ builder.places).removeAll
        ((builder.placesOf names).filter fun place => place ∉ builder.places) =
      (middle.placesOf more).filter fun place => place ∉ middle.places := by
    rw [List.removeAll, List.filter_filter, placesOf_congr early.bindings]
    apply List.filter_congr
    intro place _
    rw [early.places, Bool.eq_iff_iff]
    simp only [Bool.and_eq_true, Bool.not_eq_true', List.elem_eq_mem, decide_eq_false_iff_not,
      decide_eq_true_eq, List.mem_append, mem_newPlaces_iff, List.mem_filter]
    tauto
  have split : builder.newPlaces (names ++ more) =
      builder.newPlaces names ++ middle.newPlaces more := by
    rw [newPlaces, placesOf_append, List.filter_append, List.eraseDups_append, rest]
    rfl
  refine ⟨late.consistent, late.bindings.trans early.bindings, ?_⟩
  rw [late.places, early.places, split, List.append_assoc]

end Appending

/-- Up to their order, the places that are added are the new ones. -/
theorem Mentioning.exists_added {wanted : Bool} {names : List Name}
    (mentioning : Mentioning wanted names builder next) :
    ∃ added, next.places = builder.places ++ added ∧ added.Nodup ∧
      ∀ place, place ∈ added ↔ place ∈ builder.newPlaces names := by
  obtain ⟨more, grown, _⟩ := mentioning.registered
  have split : next.places = builder.places ++ more.map Registration.place := by
    rw [Builder.places, grown, List.map_append, Builder.places]
  have distinct : (builder.places ++ more.map Registration.place).Nodup := by
    rw [← split, Builder.places, mentioning.consistent.map_place_registrations]
    exact mentioning.consistent.places
  obtain ⟨_, moreDistinct, apart⟩ := List.nodup_append.mp distinct
  refine ⟨more.map Registration.place, split, moreDistinct, ?_⟩
  intro place
  have known := mentioning.places place
  rw [split, List.mem_append] at known
  rw [mem_newPlaces_iff]
  constructor
  · intro isNew
    have fresh : place ∉ builder.places := fun old => apart place old place isNew rfl
    exact ⟨(known.mp (.inr isNew)).resolve_left fresh, fresh⟩
  · rintro ⟨meant, fresh⟩
    exact (known.mpr (.inr meant)).resolve_left fresh

/-- The order does not matter for at most one name. -/
theorem Mentioning.appending {wanted : Bool} {names : List Name}
    (mentioning : Mentioning wanted names builder next) (single : names.length ≤ 1) :
    Appending names builder next := by
  obtain ⟨added, split, distinct, members⟩ := mentioning.exists_added
  have short : ((builder.placesOf names).filter fun place => place ∉ builder.places).length ≤ 1 :=
    calc
      _ ≤ (builder.placesOf names).length := List.length_filter_le _ _
      _ ≤ names.length := List.length_filterMap_le _ _
      _ ≤ 1 := single
  have appended : added = builder.newPlaces names := by
    rw [newPlaces] at members ⊢
    generalize (builder.placesOf names).filter _ = fresh at members short ⊢
    cases fresh with
    | nil =>
        apply List.eq_nil_iff_forall_not_mem.mpr
        intro place isNew
        cases (members place).mp isNew
    | cons place rest =>
        have alone : rest = [] := by simpa using short
        subst alone
        have known : added.Perm [place] :=
          (List.perm_ext_iff_of_nodup distinct (List.nodup_singleton place)).mpr members
        exact List.perm_singleton.mp known
  exact ⟨mentioning.consistent, mentioning.bindings, appended ▸ split⟩

theorem Consistent.length_places (consistent : Consistent builder) :
    builder.places.length = builder.columns.length := by
  rw [Builder.places, List.length_map, consistent.columns_eq, List.length_map]

/-- Where no column has been added, nothing has been registered. -/
theorem eq_of_registers (path : ReflTransGen Registers builder next)
    (same : next.columns.length = builder.columns.length) : next = builder := by
  have grown : next = builder ∨ builder.columns.length < next.columns.length := by
    clear same
    induction path with
    | refl => exact .inl rfl
    | tail _ last ih =>
        right
        cases last
        rcases ih with rfl | longer
        · simp [withColumn]
        · simp only [withColumn, List.length_append, List.length_singleton]
          omega
  exact grown.resolve_right (by omega)

end Builder

namespace Compile

open TripleTables.Builder (Registers Registration Consistent SameView Appending)

variable {mode : Mode}

/-! ## Expressions -/

/-- The steps register columns only, and answer alike where they see the same. -/
structure AnswersAlike (aliases : Bool) {α : Type} (step other : Compile α) : Prop where
  moves : Run.Moves Registers step
  otherMoves : Run.Moves Registers other
  answer : ∀ {first second}, SameView aliases first second →
    Run.answer step first = Run.answer other second

theorem AnswersAlike.bind {aliases : Bool} {α β : Type} {step other : Compile α}
    {following others : α → Compile β} (early : AnswersAlike aliases step other)
    (late : ∀ value, AnswersAlike aliases (following value) (others value)) :
    AnswersAlike aliases (step >>= following) (other >>= others) where
  moves := early.moves.bind fun value => (late value).moves
  otherMoves := early.otherMoves.bind fun value => (late value).otherMoves
  answer {first second} view := by
    have same := early.answer view
    cases ran : step first with
    | ok value next =>
        obtain ⟨otherNext, otherRan⟩ :=
          Run.exists_of_answer_ok (same.symm.trans (Run.answer_of_ok ran))
        rw [Run.answer_bind_of_ok ran, Run.answer_bind_of_ok otherRan]
        have nextView := view.along (early.moves.of_ok ran) (early.otherMoves.of_ok otherRan)
        exact (late value).answer nextView
    | error error next =>
        obtain ⟨otherNext, otherRan⟩ :=
          Run.exists_of_answer_error (same.symm.trans (Run.answer_of_error ran))
        rw [Run.answer_bind_of_error ran, Run.answer_bind_of_error otherRan]

/-- The mode with another wish for new columns. -/
def Mode.wishing (mode : Mode) (wish : Bool) : Mode :=
  { mode with optionalColumns := wish }

/-- What a name is read as, given the answer to it as the name of a column and
the result column that it may mean instead. -/
def readAs (shown : Option Variable) : Except QueryError Variable → Except CompileError Variable
  | .ok v => .ok v
  | .error (.unknownColumn unknown) => shown.elim (.error (.query (.unknownColumn unknown))) .ok
  | .error error => .error (.query error)

theorem answer_columnVariable {parts : Sql.ObjectName} {name : Name}
    (named : Name.ofColumnParts? parts = some name) (builder : Builder) :
    Run.answer (columnVariable mode parts) builder =
      readAs (shownVariable? mode parts name builder)
        (Run.answer (Builder.addColumn name mode.optionalColumns) builder) := by
  rw [Run.answer, Run.answer, outcome_columnVariable named]
  cases Run.outcome (Builder.addColumn name mode.optionalColumns) builder with
  | ok result => rfl
  | error error =>
      cases error with
      | unknownColumn unknown =>
          cases shownVariable? mode parts name builder with
          | some v => rfl
          | none => rfl
      | _ => rfl

theorem answersAlike_columnVariable (wish : Bool) (parts : Sql.ObjectName) :
    AnswersAlike mode.resolveAliases (columnVariable mode parts)
      (columnVariable (mode.wishing wish) parts) where
  moves := moves_columnVariable parts
  otherMoves := moves_columnVariable parts
  answer {first second} view := by
    cases named : Name.ofColumnParts? parts with
    | none =>
        have refused : ∀ mode, columnVariable mode parts =
            throw (mode.refusal (.columnName parts)) := by
          intro mode
          rw [columnVariable, named]
        rw [refused, refused]
        rfl
    | some name =>
        have shown : shownVariable? mode parts name first =
            shownVariable? (mode.wishing wish) parts name second := by
          cases asked : mode.resolveAliases with
          | false => simp [shownVariable?, Mode.wishing, asked]
          | true =>
              have seen : first.projectionVariable? name.shortName =
                  second.projectionVariable? name.shortName := by
                rw [Builder.projectionVariable?, view.shown asked, Builder.projectionVariable?]
              rw [shownVariable?, seen]
              rfl
        rw [answer_columnVariable named, answer_columnVariable named, shown,
          view.answer_addColumn name mode.optionalColumns wish]
        rfl

theorem answersAlike_expression (wish : Bool) (e : Sql.Expr) :
    AnswersAlike mode.resolveAliases (expression mode e) (expression (mode.wishing wish) e) := by
  have alike : Alike mode (mode.wishing wish) fun _ => AnswersAlike mode.resolveAliases :=
    { functions := rfl
      aggregates := rfl
      lift := fun agree => by
        refine ⟨Run.moves_liftExcept _, Run.moves_liftExcept _, fun _ => ?_⟩
        cases agree
        all_goals rfl
      bind := .bind
      column := answersAlike_columnVariable wish }
  exact alike.expression e

theorem appending_columnVariable {parts : Sql.ObjectName} {v : Variable} {before next : Builder}
    (consistent : Consistent before) (ran : columnVariable mode parts before = .ok v next) :
    Appending (Sql.Expr.columnNames (.column parts)) before next :=
  (mentioning_columnVariable consistent ran).appending (List.length_filterMap_le _ _)

theorem appending_expression {e : Sql.Expr} {result : Expr} {before next : Builder}
    (consistent : Consistent before) (ran : expression mode e before = .ok result next) :
    Appending e.columnNames before next := by
  have gathered := (visits_of_expression ran).gather .refl .trans
    (fun appending => appending.consistent) appending_columnVariable consistent
  rwa [List.flatMap_singleton] at gathered

/-- The columns that compiling an expression registers, in order. -/
theorem exists_registrations {e : Sql.Expr} {result : Expr} {before next : Builder}
    (consistent : Consistent before) (ran : expression mode e before = .ok result next) :
    ∃ more : List Registration,
      next.columns = before.columns ++ more.map Registration.mentioned ∧
      more.map Registration.place = before.newPlaces e.columnNames ∧
      ∀ registration ∈ more,
        before.bindings[registration.place.1]? = some registration.binding ∧
        registration.binding.table.columns[registration.place.2]? = some registration.column := by
  have appending := appending_expression consistent ran
  obtain ⟨more, grown, _⟩ := (mentioning_expression consistent ran).registered
  refine ⟨more, ?_, ?_, ?_⟩
  · rw [appending.consistent.columns_eq, grown, List.map_append, consistent.columns_eq]
  · have places := appending.places
    rw [Builder.places, grown, List.map_append] at places
    exact List.append_cancel_left places
  · intro registration isNew
    have registered : registration ∈ next.registrations := by
      rw [grown]
      exact List.mem_append_right _ isNew
    obtain ⟨_, _, bound, declared, _⟩ := appending.consistent.exists_entry registered
    rw [appending.bindings] at bound
    exact ⟨bound, declared⟩

/-- An expression that has been compiled has nothing left to register. -/
theorem expression_again {e : Sql.Expr} {result : Expr} {before next : Builder}
    (consistent : Consistent before) (ran : expression mode e before = .ok result next)
    (wish : Bool) : expression (mode.wishing wish) e next = .ok result next := by
  have path := (moves_expression e).of_ok ran
  have view : SameView mode.resolveAliases before next :=
    (SameView.forward ⟨consistent, consistent, rfl, fun _ => rfl⟩ path).symm
  obtain ⟨last, again⟩ := Run.exists_of_answer_ok
    (((answersAlike_expression wish e).answer view).symm.trans (Run.answer_of_ok ran))
  have appending := appending_expression consistent ran
  have appendingAgain := appending_expression appending.consistent again
  have nothing : next.newPlaces e.columnNames = [] := by
    apply List.eq_nil_iff_forall_not_mem.mpr
    intro place isNew
    obtain ⟨meant, fresh⟩ := Builder.mem_newPlaces_iff.mp isNew
    rw [Builder.placesOf_congr appending.bindings] at meant
    exact fresh (((mentioning_expression consistent ran).places place).mpr (.inr meant))
  have same : last.columns.length = next.columns.length := by
    rw [← appendingAgain.consistent.length_places, ← appending.consistent.length_places,
      appendingAgain.places, nothing, List.append_nil]
  rw [again, Builder.eq_of_registers ((moves_expression e).of_ok again) same]

/-- The result or the error of an expression is the same from every builder with
the same tables, whatever has been registered there and whatever is wished for
new columns; result columns count where names may mean them.  The columns that
are registered are appended in the order of their first mention, and compiling
the expression once more changes nothing. -/
theorem expression_historyFree {catalog : Catalog} {first second : Builder}
    (reachable : Builder.Reachable catalog first)
    (otherReachable : Builder.Reachable catalog second) (mode : Mode)
    (sameTables : first.scope = second.scope)
    (sameShown : mode.resolveAliases = true → first.projections = second.projections)
    (e : Sql.Expr) :
    (∀ wish, Run.answer (expression mode e) first =
        Run.answer (expression (mode.wishing wish) e) second) ∧
      ∀ result next, expression mode e first = .ok result next →
        (∃ more : List Registration,
          next.columns = first.columns ++ more.map Registration.mentioned ∧
          more.map Registration.place = first.newPlaces e.columnNames ∧
          ∀ registration ∈ more,
            first.bindings[registration.place.1]? = some registration.binding ∧
            registration.binding.table.columns[registration.place.2]? =
              some registration.column) ∧
        ∀ wish, expression (mode.wishing wish) e next = .ok result next := by
  have consistent := reachable.consistent
  refine ⟨?_, ?_⟩
  · intro wish
    exact (answersAlike_expression wish e).answer
      ⟨consistent, otherReachable.consistent, sameTables, sameShown⟩
  · intro result next ran
    exact ⟨exists_registrations consistent ran, expression_again consistent ran⟩

/-- The condition `b.x = a.x OR b.x IS NULL`. -/
def joinedOrAbsent : Sql.Expr :=
  .binary .or (.binary .equal (.column ["b", "x"]) (.column ["a", "x"]))
    (.isNull false (.column ["b", "x"]))

/-- A clause without functions. -/
def plainMode : Mode :=
  { functions := {}, clause := "WHERE clause" }

/-- A table is bound as `a` and `b`, and the first of their columns are
registered. -/
def boundWith (columns : Nat) (catalog : Catalog) : Builder :=
  Builder.afterAll ((Builder.boundTwice "a" "b").take (2 + columns)) { catalog }

/-- From a builder where one of its columns is registered the condition gives
what it gives from one without columns, and registers the other. -/
theorem expression_historyFree_joinedOrAbsent :
    ∃ catalog result next, ∃ more : List Registration,
      Builder.oneTable.assemble = .ok catalog ∧
      (boundWith 1 catalog).scope = (boundWith 0 catalog).scope ∧
      expression plainMode joinedOrAbsent (boundWith 1 catalog) = .ok result next ∧
      Run.answer (expression (plainMode.wishing true) joinedOrAbsent) (boundWith 0 catalog) =
        .ok result ∧
      next.columns = (boundWith 1 catalog).columns ++ more.map Registration.mentioned ∧
      more.map Registration.place = [(1, 0)] ∧
      expression (plainMode.wishing true) joinedOrAbsent next = .ok result next := by
  have checked : ∀ catalog, Builder.oneTable.assemble = .ok catalog →
      (boundWith 1 catalog).scope = (boundWith 0 catalog).scope ∧
        (boundWith 1 catalog).newPlaces joinedOrAbsent.columnNames = [(1, 0)] ∧
        (Run.answer (expression plainMode joinedOrAbsent) (boundWith 1 catalog)).isOk = true := by
    rintro _ ⟨⟩
    decide +kernel
  obtain ⟨catalog, assembled⟩ : ∃ catalog, Builder.oneTable.assemble = .ok catalog := ⟨_, rfl⟩
  obtain ⟨sameTables, places, succeeds⟩ := checked catalog assembled
  have reachable : ∀ columns, Builder.Reachable catalog (boundWith columns catalog) :=
    fun columns => (Builder.Reachable.empty none false).afterAll _
  obtain ⟨same, further⟩ := expression_historyFree (reachable 1) (reachable 0) plainMode
    sameTables (fun asked => by cases asked) joinedOrAbsent
  cases answered : Run.answer (expression plainMode joinedOrAbsent) (boundWith 1 catalog) with
  | error error =>
      rw [answered] at succeeds
      cases succeeds
  | ok result =>
      obtain ⟨next, ran⟩ := Run.exists_of_answer_ok answered
      obtain ⟨⟨more, columns, isMore, _⟩, again⟩ := further result next ran
      exact ⟨catalog, result, next, more, assembled, sameTables, ran,
        (same true).symm.trans answered, columns, isMore.trans places, again true⟩

end Compile

end TripleTables
