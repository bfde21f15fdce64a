import TripleTables.Proofs.Sql.Agreement

/-!
# Readers that move on

`Advances least p` says that `p` moves on within every text: what it leaves is an
end of the text, shorter by at least `least` characters, and the places of its
errors are ends of the text.

`Alike n least p q` says that two readers give the same reply to every text that is
shorter than `n`, and move on in it.  Behind a character that has been read two
readers need only be alike on shorter texts, so a grammar hands on what its nested
readers have in common.

A loop whose rounds move on is `Clockless`: `Unrolls` is its equation, which says
when it goes on and when it ends, and the loop with a clock is the only solution.
-/

namespace TripleTables.Sql.Reader

variable {ε δ α β : Type} [Placed ε] [Placed δ]

/-! ## Moving on -/

/-- The reply moves on within the text. -/
inductive Moves (least : Nat) (s : List Char) : Reply ε α → Prop
  | ok {value : α} {rest : List Char} (left : Leaves least s rest) : Moves least s (.ok value rest)
  | miss {error : ε} (within : Within error s) : Moves least s (.miss error)
  | halt {error : ε} (within : Within error s) : Moves least s (.halt error)
  | torn {place : List Char} (torn : TornAt s place) : Moves least s (.torn place)

namespace Moves

variable {least more : Nat} {s rest : List Char} {reply : Reply ε α}

theorem mono (moves : Moves least s reply) (fewer : more ≤ least) : Moves more s reply := by
  cases moves with
  | ok left => exact .ok (left.mono fewer)
  | miss within => exact .miss within
  | halt within => exact .halt within
  | torn torn => exact .torn torn

/-- A reply to what is left is a reply to the whole text. -/
theorem after (left : Leaves least s rest) (moves : Moves more rest reply) :
    Moves (least + more) s reply := by
  cases moves with
  | ok next => exact .ok (left.trans next)
  | miss within => exact .miss (within.of_suffix left.suffix)
  | halt within => exact .halt (within.of_suffix left.suffix)
  | torn torn => exact .torn (torn.of_suffix left.suffix)

end Moves

theorem Matched.moves {γ : Type} {least : Nat} {view : α → γ} {s t : List Char}
    {a b : Reply ε α} (matched : Matched least view s t a b) : Moves least s a := by
  cases matched with
  | ok _ _ first _ => exact .ok first
  | miss first _ => exact .miss first
  | halt first _ => exact .halt first
  | torn first _ => exact .torn first

/-- The reader moves on in every text. -/
def Advances (least : Nat) (p : Reader ε α) : Prop :=
  ∀ s, Moves least s (p s)

/-! ## Readers that reply the same -/

/-- The readers reply the same to texts shorter than `n`, and move on in them. -/
structure Alike (n least : Nat) (p q : Reader ε α) : Prop where
  same : ∀ {s : List Char}, s.length < n → p s = q s
  moves : ∀ {s : List Char}, s.length < n → Moves least s (p s)

/-- A reader that agrees with itself moves on. -/
theorem Agree.alike {γ : Type} {n least : Nat} {view : α → γ} {p : Reader ε α}
    (agree : Agree n n least view p p) : Alike n least p p :=
  ⟨fun _ => rfl, fun bound => (agree.matched bound bound (.refl _)).moves⟩

theorem Advances.of_alike {least : Nat} {p : Reader ε α} (alike : ∀ n, Alike (n + 1) least p p) :
    Advances least p :=
  fun s => (alike s.length).moves s.length.lt_succ_self

namespace Alike

variable {n least more : Nat} {p q p' q' : Reader ε α}

theorem mono (alike : Alike n least p q) (fewer : more ≤ least) : Alike n more p q :=
  ⟨alike.same, fun bound => (alike.moves bound).mono fewer⟩

/-- A family of readers, of which each text is read by its own. -/
theorem diagonal (family : List Char → Reader ε α)
    (alike : ∀ s : List Char, s.length < n → Alike (s.length + 1) least (family s) q) :
    Alike n least (fun s => family s s) q :=
  ⟨fun short => (alike _ short).same (Nat.lt_succ_self _),
    fun short => (alike _ short).moves (Nat.lt_succ_self _)⟩

theorem pure (value : α) : Alike n 0 (pure value : Reader ε α) (pure value) :=
  ⟨fun _ => rfl, fun _ => .ok (.refl _)⟩

/-- The second reader works on texts that are shorter by what the first one has
read. -/
theorem bindWithin {n' : Nat} {f g : α → Reader ε β} (first : Alike n least p q)
    (bound : n ≤ n' + least) (next : ∀ value, Alike n' more (f value) (g value)) :
    Alike n (least + more) (p >>= f) (q >>= g) := by
  constructor
  · intro s short
    have moves := first.moves short
    rw [bind_apply, bind_apply, ← first.same short]
    generalize p s = reply at moves
    cases moves with
    | ok left =>
        have shorter := left.shorter
        exact (next _).same (by omega)
    | miss _ => rfl
    | halt _ => rfl
    | torn _ => rfl
  · intro s short
    have moves := first.moves short
    rw [bind_apply]
    generalize p s = reply at moves
    cases moves with
    | ok left =>
        have shorter := left.shorter
        exact ((next _).moves (by omega)).after left
    | miss within => exact .miss within
    | halt within => exact .halt within
    | torn torn => exact .torn torn

/-- What the first reader has read is counted. -/
theorem bind {f g : α → Reader ε β} (first : Alike n least p q)
    (next : ∀ value, Alike n more (f value) (g value)) : Alike n least (p >>= f) (q >>= g) :=
  (first.bindWithin (Nat.le_add_right n least) next).mono (Nat.le_add_right least more)

/-- What the second reader has read is counted. -/
theorem andThen {f g : α → Reader ε β} (first : Alike n least p q)
    (next : ∀ value, Alike n more (f value) (g value)) : Alike n more (p >>= f) (q >>= g) :=
  (first.bindWithin (Nat.le_add_right n least) next).mono (Nat.le_add_left more least)

/-- A character has been read before the second reader starts. -/
theorem behind {f g : α → Reader ε β} (first : Alike (n + 1) 1 p q)
    (next : ∀ value, Alike n more (f value) (g value)) : Alike (n + 1) 1 (p >>= f) (q >>= g) :=
  (first.bindWithin (Nat.le_refl _) next).mono (Nat.le_add_right 1 more)

theorem map (f : α → β) (alike : Alike n least p q) :
    Alike n least (do return f (← p)) (do return f (← q)) :=
  alike.bind fun value => pure (f value)

theorem orElse (first : Alike n least p q) (second : Alike n least p' q') :
    Alike n least (Reader.orElse p p') (Reader.orElse q q') := by
  constructor
  · intro s short
    unfold Reader.orElse
    rw [first.same short, second.same short]
  · intro s short
    have moves := first.moves short
    unfold Reader.orElse
    generalize p s = reply at moves
    cases moves with
    | ok left => exact .ok left
    | miss _ => exact second.moves short
    | halt within => exact .halt within
    | torn torn => exact .torn torn

theorem firstOf {others others' : List (Reader ε α)} (first : Alike n least p q)
    (rest : List.Forall₂ (Alike n least) others others') :
    Alike n least (Reader.firstOf p others) (Reader.firstOf q others') := by
  induction rest generalizing p q with
  | nil => exact first
  | cons next _ ih => exact first.orElse (ih next)

theorem optional (alike : Alike n least p q) :
    Alike n 0 (Reader.optional p) (Reader.optional q) := by
  constructor
  · intro s short
    unfold Reader.optional
    rw [alike.same short]
  · intro s short
    have moves := alike.moves short
    unfold Reader.optional
    generalize p s = reply at moves
    cases moves with
    | ok left => exact .ok (left.mono least.zero_le)
    | miss _ => exact .ok (.refl s)
    | halt within => exact .halt within
    | torn torn => exact .torn torn

/-- How the reading goes on depends on whether there is a value.  Behind a value the
text is shorter by what it takes. -/
theorem ifPresentWithin {n' rest : Nat} {f g : Option α → Reader ε β} (alike : Alike n least p q)
    (bound : n ≤ n' + least) (present : ∀ value, Alike n' rest (f (some value)) (g (some value)))
    (absent : Alike n more (f none) (g none)) (fewer : more ≤ least) :
    Alike n more (Reader.optional p >>= f) (Reader.optional q >>= g) := by
  constructor
  · intro s short
    have moves := alike.moves short
    rw [bind_apply, bind_apply]
    unfold Reader.optional
    rw [← alike.same short]
    generalize p s = reply at moves
    cases moves with
    | ok left =>
        have shorter := left.shorter
        exact (present _).same (by omega)
    | miss _ => exact absent.same short
    | halt _ => rfl
    | torn _ => rfl
  · intro s short
    have moves := alike.moves short
    rw [bind_apply]
    unfold Reader.optional
    generalize p s = reply at moves
    cases moves with
    | ok left =>
        have shorter := left.shorter
        exact (((present _).moves (by omega)).after left).mono (by omega)
    | miss _ => exact absent.moves short
    | halt within => exact .halt within
    | torn torn => exact .torn torn

theorem ifPresent {rest : Nat} {f g : Option α → Reader ε β} (alike : Alike n least p q)
    (present : ∀ value, Alike n rest (f (some value)) (g (some value)))
    (absent : Alike n more (f none) (g none)) (fewer : more ≤ least) :
    Alike n more (Reader.optional p >>= f) (Reader.optional q >>= g) :=
  alike.ifPresentWithin (Nat.le_add_right n least) present absent fewer

theorem orAfterFailure (first : Alike n least p q) (second : Alike n least p' q') :
    Alike n least (Reader.orAfterFailure p p') (Reader.orAfterFailure q q') := by
  constructor
  · intro s short
    unfold Reader.orAfterFailure
    rw [first.same short, second.same short]
  · intro s short
    have moves := first.moves short
    unfold Reader.orAfterFailure
    generalize p s = reply at moves
    cases moves with
    | ok left => exact .ok left
    | miss _ => exact second.moves short
    | halt _ => exact second.moves short
    | torn torn => exact .torn torn

theorem mapErrors {onMiss onHalt : ε → Reply δ α} (alike : Alike n least p q)
    (missed : ∀ {s : List Char} {error : ε}, Within error s → Moves least s (onMiss error))
    (halted : ∀ {s : List Char} {error : ε}, Within error s → Moves least s (onHalt error)) :
    Alike n least (Reader.mapErrors p onMiss onHalt) (Reader.mapErrors q onMiss onHalt) := by
  constructor
  · intro s short
    unfold Reader.mapErrors
    rw [alike.same short]
  · intro s short
    have moves := alike.moves short
    unfold Reader.mapErrors
    generalize p s = reply at moves
    cases moves with
    | ok left => exact .ok left
    | miss within => exact missed within
    | halt within => exact halted within
    | torn torn => exact .torn torn

/-! ### Repetition -/

theorem iterate {step other : α → Reader ε α}
    (alike : ∀ value, Alike n 1 (step value) (other value))
    (clock : List Char) {s : List Char} (short : s.length < n) (value : α) :
    Reader.iterate step clock value s = Reader.iterate other clock value s ∧
      Moves 0 s (Reader.iterate step clock value s) := by
  induction clock generalizing s value with
  | nil => exact ⟨rfl, .ok (.refl s)⟩
  | cons _ clock ih =>
      have moves := (alike value).moves short
      unfold Reader.iterate
      rw [← (alike value).same short]
      generalize step value s = reply at moves
      cases moves with
      | @ok next rest left =>
          have shorter := left.shorter
          obtain ⟨same, later⟩ := ih (s := rest) (by omega) next
          exact ⟨same, (later.after left).mono (Nat.zero_le _)⟩
      | miss _ => exact ⟨rfl, .ok (.refl s)⟩
      | halt within => exact ⟨rfl, .halt within⟩
      | torn torn => exact ⟨rfl, .torn torn⟩

theorem repeating {step other : α → Reader ε α}
    (alike : ∀ value, Alike n 1 (step value) (other value)) (value : α) :
    Alike n 0 (Reader.repeating step value) (Reader.repeating other value) :=
  ⟨fun short => (iterate alike _ short value).1, fun short => (iterate alike _ short value).2⟩

theorem many (alike : Alike n 1 p q) : Alike n 0 (Reader.many p) (Reader.many q) :=
  (repeating (fun values => alike.map (· :: values)) []).map List.reverse

theorem many1 (alike : Alike n 1 p q) : Alike n 1 (Reader.many1 p) (Reader.many1 q) :=
  alike.bind fun first => alike.many.map (first :: ·)

theorem separatedList1 {separator : Reader ε β} (alike : Alike n 1 p q)
    (separates : Alike n 1 separator separator) :
    Alike n 1 (Reader.separatedList1 separator p) (Reader.separatedList1 separator q) :=
  alike.bind fun first => (separates.bind fun _ => alike).many.map (first :: ·)

theorem separatedList {separator : Reader ε β} (alike : Alike n 1 p q)
    (separates : Alike n 1 separator separator) :
    Alike n 0 (Reader.separatedList separator p) (Reader.separatedList separator q) := by
  unfold Reader.separatedList
  exact (alike.separatedList1 separates).optional.map fun found => found.getD []

end Alike

/-! ## Loops without a clock -/

/-- The loop goes on for as long as its rounds succeed: it ends where a round misses,
and halts or is torn where a round is. -/
def Unrolls (step loop : α → Reader ε α) : Prop :=
  ∀ value s, loop value s =
    match step value s with
    | .ok next rest => loop next rest
    | .miss _ => .ok value s
    | .halt error => .halt error
    | .torn place => .torn place

/-- The clock of the loop makes no difference: without it there is this loop and no
other. -/
def Clockless (step : α → Reader ε α) : Prop :=
  ∀ loop, Unrolls step loop ↔ loop = repeating step

section Loops

variable {step : α → Reader ε α} (advances : ∀ value, Advances 1 (step value))
  (stops : ∀ value, Misses (step value) [])

include advances stops

/-- Clocks that are not shorter than the text make no difference. -/
theorem iterate_eq_of_room {clock other s : List Char} (room : s.length ≤ clock.length)
    (otherRoom : s.length ≤ other.length) (value : α) :
    iterate step clock value s = iterate step other value s := by
  induction clock generalizing other s value with
  | nil =>
      obtain rfl := List.eq_nil_of_length_eq_zero (Nat.le_zero.mp room)
      rw [iterate_of_rounds (.none value []) (stops value) otherRoom]
      rfl
  | cons _ clock ih =>
      cases other with
      | nil =>
          obtain rfl := List.eq_nil_of_length_eq_zero (Nat.le_zero.mp otherRoom)
          rw [iterate_of_rounds (.none value []) (stops value) room]
          rfl
      | cons _ other =>
          have moves := advances value s
          unfold iterate
          generalize step value s = reply at moves
          cases moves with
          | ok left =>
              have shorter := left.shorter
              rw [List.length_cons] at room otherRoom
              exact ih (by omega) (by omega) _
          | miss _ => rfl
          | halt _ => rfl
          | torn _ => rfl

theorem unrolls_repeating : Unrolls step (repeating step) := by
  intro value s
  cases s with
  | nil =>
      obtain ⟨error, missed⟩ := stops value
      rw [missed]
      rfl
  | cons c s =>
      have moves := advances value (c :: s)
      rw [repeating, iterate]
      beta_reduce
      generalize step value (c :: s) = reply at moves
      cases moves with
      | @ok next rest left =>
          have shorter : rest.length ≤ s.length := Nat.le_of_succ_le_succ left.shorter
          exact iterate_eq_of_room advances stops shorter (Nat.le_refl _) next
      | miss _ => rfl
      | halt _ => rfl
      | torn _ => rfl

/-- A loop whose rounds move on is the only solution of its equation. -/
theorem clockless : Clockless step := by
  intro loop
  constructor
  · intro unrolls
    funext value s
    -- A round that succeeds leaves a shorter text, on which the loops agree.
    induction length : s.length using Nat.strong_induction_on generalizing value s with
    | h size ih =>
        subst length
        have moves := advances value s
        rw [unrolls value s, unrolls_repeating advances stops value s]
        generalize step value s = reply at moves
        cases moves with
        | ok left => exact ih _ left.shorter _ _ rfl
        | miss _ => rfl
        | halt _ => rfl
        | torn _ => rfl
  · rintro rfl
    exact unrolls_repeating advances stops

end Loops

/-- The loop that reads as many values as there are needs no clock. -/
def ManyEnds (p : Reader ε α) : Prop :=
  Clockless fun values => do return (← p) :: values

theorem manyEnds {p : Reader ε α} (alike : ∀ n, Alike (n + 1) 1 p p) (stops : Misses p []) :
    ManyEnds p :=
  clockless (fun values => .of_alike fun n => (alike n).map (· :: values))
    fun _ => stops.bind _

end TripleTables.Sql.Reader
