import TripleTables.Sql.Reader

/-!
# Readers in general

`Yields p holds` says that every value which `p` reads has a property, whatever
the text.  The ways of putting readers together hand such properties on, so a
property of the trees that a grammar reads is proved along the grammar.

`Misses p s` says that `p` leaves a text to others.  A choice reads by its first
alternative that does not miss, and a repetition goes on until its round misses;
`Rounds` is a run of rounds each of which takes something away from the text.
-/

namespace TripleTables.Sql.Reader

variable {ε δ α β : Type}

/-- Every value that is read has a property. -/
structure Yields (p : Reader ε α) (holds : α → Prop) : Prop where
  of_ok : ∀ {s : List Char} {value : α} {rest : List Char}, p s = .ok value rest → holds value

theorem bind_eq_ok_iff {p : Reader ε α} {f : α → Reader ε β} {s rest : List Char} {result : β} :
    (p >>= f) s = .ok result rest ↔
      ∃ value middle, p s = .ok value middle ∧ f value middle = .ok result rest := by
  rw [bind_apply]
  cases p s with
  | ok value middle =>
      constructor
      · intro read
        exact ⟨value, middle, rfl, read⟩
      · rintro ⟨_, _, same, read⟩
        cases same
        exact read
  | miss error => simp
  | halt error => simp
  | torn place => simp

namespace Yields

variable {p q : Reader ε α} {holds : α → Prop}

theorem mono {wider : α → Prop} (yields : Yields p holds)
    (included : ∀ value, holds value → wider value) :
    Yields p wider :=
  ⟨fun read => included _ (yields.of_ok read)⟩

theorem any (p : Reader ε α) : Yields p fun _ => True :=
  ⟨fun _ => trivial⟩

theorem pure {value : α} (isGood : holds value) : Yields (pure value : Reader ε α) holds := by
  constructor
  intro s other rest read
  cases read
  exact isGood

theorem bind {f : α → Reader ε β} {result : β → Prop} (first : Yields p holds)
    (next : ∀ value, holds value → Yields (f value) result) : Yields (p >>= f) result := by
  constructor
  intro s value rest read
  obtain ⟨value, middle, firstRead, nextRead⟩ := bind_eq_ok_iff.mp read
  exact (next value (first.of_ok firstRead)).of_ok nextRead

/-- Nothing is asked of the first value. -/
theorem andThen {f : α → Reader ε β} {result : β → Prop} (p : Reader ε α)
    (next : ∀ value, Yields (f value) result) : Yields (p >>= f) result :=
  bind (any p) fun value _ => next value

theorem orElse (first : Yields p holds) (second : Yields q holds) :
    Yields (Reader.orElse p q) holds := by
  constructor
  intro s value rest read
  unfold Reader.orElse at read
  split at read
  · exact second.of_ok read
  · exact first.of_ok read

theorem firstOf {others : List (Reader ε α)} (first : Yields p holds)
    (rest : ∀ other ∈ others, Yields other holds) : Yields (Reader.firstOf p others) holds := by
  induction others generalizing p with
  | nil => exact first
  | cons next more ih =>
      apply orElse first
      apply ih (rest next (by simp))
      intro other member
      exact rest other (by simp [member])

theorem optional (yields : Yields p holds) :
    Yields (Reader.optional p) fun found => ∀ value ∈ found, holds value := by
  constructor
  intro s found rest read
  unfold Reader.optional at read
  split at read
  · rename_i value left present
    cases read
    simpa using yields.of_ok present
  · cases read
    simp
  · contradiction
  · contradiction

theorem orAfterFailure (first : Yields p holds) (second : Yields q holds) :
    Yields (Reader.orAfterFailure p q) holds := by
  constructor
  intro s value rest read
  unfold Reader.orAfterFailure at read
  split at read
  · rename_i present
    cases read
    exact first.of_ok present
  · exact second.of_ok read
  · exact second.of_ok read
  · contradiction

/-- Errors that are changed into errors do not matter. -/
theorem mapErrors {onMiss onHalt : ε → Reply δ α} (yields : Yields p holds)
    (missed : ∀ error value rest, onMiss error ≠ .ok value rest)
    (halted : ∀ error value rest, onHalt error ≠ .ok value rest) :
    Yields (Reader.mapErrors p onMiss onHalt) holds := by
  constructor
  intro s value rest read
  unfold Reader.mapErrors at read
  split at read
  · rename_i present
    cases read
    exact yields.of_ok present
  · exact absurd read (missed _ _ _)
  · exact absurd read (halted _ _ _)
  · contradiction

/-! ## Repetition -/

/-- What every round keeps holds at the end. -/
theorem repeating {step : α → Reader ε α} {value : α} (isGood : holds value)
    (kept : ∀ value, holds value → Yields (step value) holds) :
    Yields (Reader.repeating step value) holds := by
  have rounds : ∀ clock value, holds value → Yields (iterate step clock value) holds := by
    intro clock
    induction clock with
    | nil =>
        intro value isGood
        constructor
        intro s result rest read
        cases read
        exact isGood
    | cons _ clock ih =>
        intro value isGood
        constructor
        intro s result rest read
        unfold iterate at read
        split at read
        · rename_i next left stepped
          exact (ih next ((kept value isGood).of_ok stepped)).of_ok read
        · cases read
          exact isGood
        · contradiction
        · contradiction
  constructor
  intro s result rest read
  exact (rounds s value isGood).of_ok read

theorem many (yields : Yields p holds) :
    Yields (Reader.many p) fun values => ∀ value ∈ values, holds value := by
  have gathered : Yields (Reader.repeating (fun values => do return (← p) :: values) [])
      fun values => ∀ value ∈ values, holds value := by
    apply repeating (by simp)
    intro values isGood
    apply bind yields
    intro value valueGood
    exact pure (by simpa using ⟨valueGood, isGood⟩)
  apply bind gathered
  intro values isGood
  exact pure (by simpa using isGood)

theorem many1 (yields : Yields p holds) :
    Yields (Reader.many1 p) fun values => values ≠ [] ∧ ∀ value ∈ values, holds value := by
  apply bind yields
  intro first firstGood
  apply bind (many yields)
  intro rest restGood
  exact pure ⟨by simp, by simpa using ⟨firstGood, restGood⟩⟩

theorem separatedList1 {separator : Reader ε β} (yields : Yields p holds) :
    Yields (Reader.separatedList1 separator p)
      fun values => values ≠ [] ∧ ∀ value ∈ values, holds value := by
  apply bind yields
  intro first firstGood
  apply bind (many (andThen separator fun _ => yields))
  intro rest restGood
  exact pure ⟨by simp, by simpa using ⟨firstGood, restGood⟩⟩

theorem separatedList {separator : Reader ε β} (yields : Yields p holds) :
    Yields (Reader.separatedList separator p) fun values => ∀ value ∈ values, holds value := by
  apply bind (optional (separatedList1 yields))
  intro found foundGood
  cases found with
  | none => exact pure (by simp)
  | some values => exact pure (foundGood values rfl).2

end Yields

/-! ## Misses -/

/-- The reader leaves the text to others. -/
def Misses (p : Reader ε α) (s : List Char) : Prop :=
  ∃ error, p s = .miss error

section Choices

variable {p q : Reader ε α} {f : α → Reader ε β} {s middle rest : List Char} {value : α}

theorem bind_of_ok (read : p s = .ok value middle) : (p >>= f) s = f value middle := by
  simp [bind_apply, read]

theorem Misses.bind (missed : Misses p s) (f : α → Reader ε β) : Misses (p >>= f) s := by
  obtain ⟨error, missed⟩ := missed
  exact ⟨error, by simp [bind_apply, missed]⟩

theorem Misses.after (read : p s = .ok value middle) (missed : Misses (f value) middle) :
    Misses (p >>= f) s := by
  rwa [Misses, bind_of_ok read]

theorem orElse_of_ok (read : p s = .ok value rest) (q : Reader ε α) :
    orElse p q s = .ok value rest := by
  simp [orElse, read]

theorem orElse_of_misses (missed : Misses p s) (q : Reader ε α) : orElse p q s = q s := by
  obtain ⟨error, missed⟩ := missed
  simp [orElse, missed]

theorem firstOf_of_ok (read : p s = .ok value rest) (others : List (Reader ε α)) :
    firstOf p others s = .ok value rest := by
  cases others with
  | nil => exact read
  | cons next more => exact orElse_of_ok read _

theorem firstOf_of_misses (missed : Misses p s) (next : Reader ε α)
    (others : List (Reader ε α)) : firstOf p (next :: others) s = firstOf next others s :=
  orElse_of_misses missed _

theorem misses_firstOf {others : List (Reader ε α)} (missed : Misses p s)
    (rest : ∀ other ∈ others, Misses other s) : Misses (firstOf p others) s := by
  induction others generalizing p with
  | nil => exact missed
  | cons next more ih =>
      rw [Misses, firstOf_of_misses missed]
      apply ih (rest next (by simp))
      intro other member
      exact rest other (by simp [member])

theorem optional_of_ok (read : p s = .ok value rest) : optional p s = .ok (some value) rest := by
  simp [optional, read]

theorem optional_of_misses (missed : Misses p s) : optional p s = .ok none s := by
  obtain ⟨error, missed⟩ := missed
  simp [optional, missed]

theorem orAfterFailure_of_ok (read : p s = .ok value rest) (q : Reader ε α) :
    orAfterFailure p q s = .ok value rest := by
  simp [orAfterFailure, read]

theorem orAfterFailure_of_misses (missed : Misses p s) (q : Reader ε α) :
    orAfterFailure p q s = q s := by
  obtain ⟨error, missed⟩ := missed
  simp [orAfterFailure, missed]

theorem misses_orAfterFailure (missed : Misses p s) (missed' : Misses q s) :
    Misses (orAfterFailure p q) s := by
  rwa [Misses, orAfterFailure_of_misses missed]

theorem succeeds_of_ok (read : p s = .ok value rest) : succeeds p s = .ok true s := by
  simp [succeeds, read]

theorem succeeds_of_misses (missed : Misses p s) : succeeds p s = .ok false s := by
  obtain ⟨error, missed⟩ := missed
  simp [succeeds, missed]

theorem mapErrors_of_ok (read : p s = .ok value rest) (onMiss onHalt : ε → Reply δ α) :
    mapErrors p onMiss onHalt s = .ok value rest := by
  simp [mapErrors, read]

end Choices

/-! ## Rounds -/

/-- Rounds that change a value, each of which makes the text shorter. -/
inductive Rounds (step : α → Reader ε α) : α → List Char → α → List Char → Prop
  | none (value : α) (s : List Char) : Rounds step value s value s
  | next {value changed last : α} {s middle rest : List Char}
      (first : step value s = .ok changed middle) (shorter : middle.length < s.length)
      (more : Rounds step changed middle last rest) : Rounds step value s last rest

section Rounds

variable {step : α → Reader ε α} {value middleValue last : α} {s middle rest : List Char}

theorem Rounds.trans (first : Rounds step value s middleValue middle)
    (second : Rounds step middleValue middle last rest) : Rounds step value s last rest := by
  induction first with
  | none _ _ => exact second
  | next read shorter _ ih => exact .next read shorter (ih second)

/-- A text has room for all rounds that are made on it. -/
theorem iterate_of_rounds (rounds : Rounds step value s last rest)
    (stop : Misses (step last) rest) {clock : List Char} (room : s.length ≤ clock.length) :
    iterate step clock value s = .ok last rest := by
  induction rounds generalizing clock with
  | none value s =>
      obtain ⟨error, missed⟩ := stop
      cases clock with
      | nil => rfl
      | cons _ clock => simp [iterate, missed]
  | next read shorter _ ih =>
      cases clock with
      | nil =>
          rw [List.length_nil] at room
          omega
      | cons _ clock =>
          rw [List.length_cons] at room
          simp only [iterate, read]
          exact ih stop (by omega)

theorem repeating_of_rounds (rounds : Rounds step value s last rest)
    (stop : Misses (step last) rest) : repeating step value s = .ok last rest :=
  iterate_of_rounds rounds stop (Nat.le_refl _)

end Rounds

end TripleTables.Sql.Reader
