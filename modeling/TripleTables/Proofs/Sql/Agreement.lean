import TripleTables.Proofs.Sql.Reader
import TripleTables.Proofs.Sql.Restyling
import TripleTables.Sql.Fault

/-!
# Readers on two texts

`Agree n m least view p q` compares what `p` makes of a text with what `q` makes of
the same text in another style: both read, or both miss, or both halt, or both are
torn.  The values that are read need not be equal but look the same through `view`, and what
is left of the two texts again differs in style only.

Each of the two runs also moves on within its own text: what is left is an end of
the text, shorter by at least `least` characters, and the places that an error
tells of are ends of the text.  The repetitions and the clocks of the nested
readers rest on that, since texts of different lengths give clocks of different
lengths.

The texts are shorter than `n` and `m`.  A reader for a nested part is known to
agree on texts that its clock is longer than; behind a character that has been
read the bounds are smaller by one.
-/

namespace TripleTables.Sql

open Lexer

/-! ## Places -/

/-- Errors that tell of places. -/
class Placed (ε : Type) where
  places : ε → List Position

instance : Placed Position where
  places place := [place]

instance : Placed ReadError where
  places error := error.faults.map Fault.place

/-- All places of the error are in the text. -/
def Within {ε : Type} [Placed ε] (error : ε) (s : List Char) : Prop :=
  ∀ place ∈ Placed.places error, place <:+ s

theorem Within.of_suffix {ε : Type} [Placed ε] {error : ε} {s rest : List Char}
    (within : Within error rest) (suffix : rest <:+ s) : Within error s :=
  fun place member => (within place member).trans suffix

theorem within_position {place s : List Char} (suffix : place <:+ s) :
    Within place s := by
  intro other member
  rw [List.mem_singleton.mp member]
  exact suffix

theorem within_single {place s : List Char} (within : Within place s)
    (context : Context) : Within (ReadError.single place context) s := by
  intro other member
  exact within other member

/-- The innermost place is one of the places, or the end of the text. -/
theorem within_place {error : ReadError} {s : List Char} (within : Within error s) :
    Within error.place s := by
  apply within_position
  unfold ReadError.place
  split
  · exact List.nil_suffix
  · rename_i fault more faults
    exact within fault.place (by simp [Placed.places, faults])

/-- The text is torn at the place. -/
structure TornAt (s place : List Char) : Prop where
  suffix : place <:+ s
  isTorn : isTorn place = true

theorem TornAt.of_suffix {s rest place : List Char} (torn : TornAt rest place)
    (suffix : rest <:+ s) : TornAt s place :=
  ⟨torn.suffix.trans suffix, torn.isTorn⟩

/-- What is left is an end of the text, and at least so many characters have
been read. -/
structure Leaves (least : Nat) (s rest : List Char) : Prop where
  suffix : rest <:+ s
  shorter : rest.length + least ≤ s.length

namespace Leaves

variable {least more : Nat} {s middle rest : List Char}

theorem refl (s : List Char) : Leaves 0 s s :=
  ⟨List.suffix_rfl, Nat.le_refl _⟩

theorem of_suffix (suffix : rest <:+ s) : Leaves 0 s rest :=
  ⟨suffix, suffix.length_le⟩

theorem cons {c : Char} (left : Leaves least s rest) : Leaves (least + 1) (c :: s) rest :=
  ⟨left.suffix.trans (List.suffix_cons c s), Nat.succ_le_succ left.shorter⟩

theorem trans (first : Leaves least s middle) (second : Leaves more middle rest) :
    Leaves (least + more) s rest :=
  ⟨second.suffix.trans first.suffix, by have := first.shorter; have := second.shorter; omega⟩

theorem mono (left : Leaves least s rest) (fewer : more ≤ least) : Leaves more s rest :=
  ⟨left.suffix, by have := left.shorter; omega⟩

end Leaves

theorem map_getD_nil {α γ : Type} (view : α → γ) (found : Option (List α)) :
    (found.getD []).map view = (found.map (List.map view)).getD [] := by
  cases found <;> rfl

namespace Reader

variable {ε δ α β γ φ : Type} [Placed ε] [Placed δ]

/-! ## Replies to two texts -/

/-- The replies to two texts correspond to each other. -/
inductive Matched (least : Nat) (view : α → γ) (s t : List Char) : Reply ε α → Reply ε α → Prop
  | ok {value other : α} {rest left : List Char} (same : view value = view other)
      (restyled : Restyled rest left) (first : Leaves least s rest)
      (second : Leaves least t left) : Matched least view s t (.ok value rest) (.ok other left)
  | miss {error other : ε} (first : Within error s) (second : Within other t) :
      Matched least view s t (.miss error) (.miss other)
  | halt {error other : ε} (first : Within error s) (second : Within other t) :
      Matched least view s t (.halt error) (.halt other)
  | torn {place other : List Char} (first : TornAt s place) (second : TornAt t other) :
      Matched least view s t (.torn place) (.torn other)

namespace Matched

variable {least more : Nat} {view : α → γ} {s t rest left : List Char} {a b : Reply ε α}

/-- Both miss where the texts start. -/
theorem here : Matched least view s t (.miss s : Reply Position α) (.miss t) :=
  .miss (within_position List.suffix_rfl) (within_position List.suffix_rfl)

theorem mono (matched : Matched least view s t a b) (fewer : more ≤ least) :
    Matched more view s t a b := by
  cases matched with
  | ok same restyled first second =>
      exact .ok same restyled (first.mono fewer) (second.mono fewer)
  | miss first second => exact .miss first second
  | halt first second => exact .halt first second
  | torn first second => exact .torn first second

/-- Replies to what is left are replies to the whole texts. -/
theorem after (first : Leaves least s rest) (second : Leaves least t left)
    (matched : Matched more view rest left a b) : Matched (least + more) view s t a b := by
  cases matched with
  | ok same restyled firstLeft secondLeft =>
      exact .ok same restyled (first.trans firstLeft) (second.trans secondLeft)
  | miss firstWithin secondWithin =>
      exact .miss (firstWithin.of_suffix first.suffix) (secondWithin.of_suffix second.suffix)
  | halt firstWithin secondWithin =>
      exact .halt (firstWithin.of_suffix first.suffix) (secondWithin.of_suffix second.suffix)
  | torn firstTorn secondTorn =>
      exact .torn (firstTorn.of_suffix first.suffix) (secondTorn.of_suffix second.suffix)

end Matched

/-- The readers agree on texts in different styles that are shorter than `n` and
`m`. -/
structure Agree (n m least : Nat) (view : α → γ) (p q : Reader ε α) : Prop where
  matched : ∀ {s t : List Char}, s.length < n → t.length < m → Restyled s t →
    Matched least view s t (p s) (q t)

namespace Agree

variable {n m least more : Nat} {view : α → γ} {look : β → φ} {p q p' q' : Reader ε α}

theorem mono (agree : Agree n m least view p q) (fewer : more ≤ least) :
    Agree n m more view p q :=
  ⟨fun first second restyled => (agree.matched first second restyled).mono fewer⟩

/-- One reader misses where the other does. -/
theorem misses {s t : List Char} (agree : Agree n m least view p q) (sBound : s.length < n)
    (tBound : t.length < m) (restyled : Restyled s t) (missed : Misses p s) : Misses q t := by
  obtain ⟨error, missed⟩ := missed
  have matched := agree.matched sBound tBound restyled
  rw [missed] at matched
  generalize reply : q t = b at matched
  cases matched with
  | miss _ _ => exact ⟨_, reply⟩

/-- What looks the same through `view` looks the same in another way. -/
theorem coarsen {coarse : α → φ} (agree : Agree n m least view p q)
    (coarser : ∀ a b, view a = view b → coarse a = coarse b) : Agree n m least coarse p q := by
  constructor
  intro s t sBound tBound restyled
  have matched := agree.matched sBound tBound restyled
  generalize p s = a at matched
  generalize q t = b at matched
  cases matched with
  | ok same restyled first second => exact .ok (coarser _ _ same) restyled first second
  | miss first second => exact .miss first second
  | halt first second => exact .halt first second
  | torn first second => exact .torn first second

theorem pure {value other : α} (same : view value = view other) :
    Agree n m 0 view (pure value : Reader ε α) (pure other) :=
  ⟨fun {s t} _ _ restyled => .ok same restyled (.refl s) (.refl t)⟩

/-- The second reader works on texts that are shorter by what the first one has
read. -/
theorem bindWithin {n' m' : Nat} {f g : α → Reader ε β} (first : Agree n m least view p q)
    (firstBound : n ≤ n' + least) (secondBound : m ≤ m' + least)
    (next : ∀ a b, view a = view b → Agree n' m' more look (f a) (g b)) :
    Agree n m (least + more) look (p >>= f) (q >>= g) := by
  constructor
  intro s t sBound tBound restyled
  have matched := first.matched sBound tBound restyled
  rw [bind_apply, bind_apply]
  generalize p s = a at matched
  generalize q t = b at matched
  cases matched with
  | ok same restyled firstLeft secondLeft =>
      have sLeft := firstLeft.shorter
      have tLeft := secondLeft.shorter
      exact ((next _ _ same).matched (by omega) (by omega) restyled).after firstLeft secondLeft
  | miss first second => exact .miss first second
  | halt first second => exact .halt first second
  | torn first second => exact .torn first second

/-- What the first reader has read is counted. -/
theorem bind {f g : α → Reader ε β} (first : Agree n m least view p q)
    (next : ∀ a b, view a = view b → Agree n m more look (f a) (g b)) :
    Agree n m least look (p >>= f) (q >>= g) :=
  (first.bindWithin (Nat.le_add_right n least) (Nat.le_add_right m least) next).mono
    (Nat.le_add_right least more)

/-- What the second reader has read is counted. -/
theorem andThen {f g : α → Reader ε β} (first : Agree n m least view p q)
    (next : ∀ a b, view a = view b → Agree n m more look (f a) (g b)) :
    Agree n m more look (p >>= f) (q >>= g) :=
  (first.bindWithin (Nat.le_add_right n least) (Nat.le_add_right m least) next).mono
    (Nat.le_add_left more least)

/-- A character has been read before the second reader starts. -/
theorem behind {f g : α → Reader ε β} (first : Agree (n + 1) (m + 1) 1 view p q)
    (next : ∀ a b, view a = view b → Agree n m more look (f a) (g b)) :
    Agree (n + 1) (m + 1) 1 look (p >>= f) (q >>= g) :=
  (first.bindWithin (Nat.le_refl _) (Nat.le_refl _) next).mono (Nat.le_add_right 1 more)

/-- The value that is read is looked at in another way. -/
theorem map {f g : α → β} (agree : Agree n m least view p q)
    (same : ∀ a b, view a = view b → look (f a) = look (g b)) :
    Agree n m least look (do return f (← p)) (do return g (← q)) :=
  agree.bind fun a b alike => pure (same a b alike)

theorem orElse (first : Agree n m least view p q) (second : Agree n m least view p' q') :
    Agree n m least view (Reader.orElse p p') (Reader.orElse q q') := by
  constructor
  intro s t sBound tBound restyled
  have matched := first.matched sBound tBound restyled
  unfold Reader.orElse
  generalize p s = a at matched
  generalize q t = b at matched
  cases matched with
  | ok same restyled firstLeft secondLeft => exact .ok same restyled firstLeft secondLeft
  | miss _ _ => exact second.matched sBound tBound restyled
  | halt first second => exact .halt first second
  | torn first second => exact .torn first second

theorem firstOf {others others' : List (Reader ε α)} (first : Agree n m least view p q)
    (rest : List.Forall₂ (Agree n m least view) others others') :
    Agree n m least view (Reader.firstOf p others) (Reader.firstOf q others') := by
  induction rest generalizing p q with
  | nil => exact first
  | cons next _ ih => exact first.orElse (ih next)

theorem optional (agree : Agree n m least view p q) :
    Agree n m 0 (Option.map view) (Reader.optional p) (Reader.optional q) := by
  constructor
  intro s t sBound tBound restyled
  have matched := agree.matched sBound tBound restyled
  unfold Reader.optional
  generalize p s = a at matched
  generalize q t = b at matched
  cases matched with
  | ok same restyled firstLeft secondLeft =>
      exact .ok (congrArg some same) restyled (firstLeft.mono least.zero_le)
        (secondLeft.mono least.zero_le)
  | miss _ _ => exact .ok rfl restyled (.refl s) (.refl t)
  | halt first second => exact .halt first second
  | torn first second => exact .torn first second

/-- How the reading goes on depends on whether there is a value.  Behind a value
the texts are shorter by what it takes. -/
theorem ifPresentWithin {n' m' rest : Nat} {f g : Option α → Reader ε β}
    (agree : Agree n m least view p q) (firstBound : n ≤ n' + least)
    (secondBound : m ≤ m' + least)
    (present : ∀ a b, view a = view b → Agree n' m' rest look (f (some a)) (g (some b)))
    (absent : Agree n m more look (f none) (g none)) (fewer : more ≤ least) :
    Agree n m more look (Reader.optional p >>= f) (Reader.optional q >>= g) := by
  constructor
  intro s t sBound tBound restyled
  have matched := agree.matched sBound tBound restyled
  rw [bind_apply, bind_apply]
  unfold Reader.optional
  generalize p s = a at matched
  generalize q t = b at matched
  cases matched with
  | ok same restyled firstLeft secondLeft =>
      have sLeft := firstLeft.shorter
      have tLeft := secondLeft.shorter
      have next := (present _ _ same).matched (by omega) (by omega) restyled
      exact (next.after firstLeft secondLeft).mono (by omega)
  | miss _ _ => exact absent.matched sBound tBound restyled
  | halt first second => exact .halt first second
  | torn first second => exact .torn first second

theorem ifPresent {rest : Nat} {f g : Option α → Reader ε β} (agree : Agree n m least view p q)
    (present : ∀ a b, view a = view b → Agree n m rest look (f (some a)) (g (some b)))
    (absent : Agree n m more look (f none) (g none)) (fewer : more ≤ least) :
    Agree n m more look (Reader.optional p >>= f) (Reader.optional q >>= g) :=
  agree.ifPresentWithin (Nat.le_add_right n least) (Nat.le_add_right m least) present absent fewer

theorem orAfterFailure (first : Agree n m least view p q) (second : Agree n m least view p' q') :
    Agree n m least view (Reader.orAfterFailure p p') (Reader.orAfterFailure q q') := by
  constructor
  intro s t sBound tBound restyled
  have matched := first.matched sBound tBound restyled
  unfold Reader.orAfterFailure
  generalize p s = a at matched
  generalize q t = b at matched
  cases matched with
  | ok same restyled firstLeft secondLeft => exact .ok same restyled firstLeft secondLeft
  | miss _ _ => exact second.matched sBound tBound restyled
  | halt _ _ => exact second.matched sBound tBound restyled
  | torn first second => exact .torn first second

theorem succeeds (agree : Agree n m least view p q) :
    Agree n m 0 id (Reader.succeeds p) (Reader.succeeds q) := by
  constructor
  intro s t sBound tBound restyled
  have matched := agree.matched sBound tBound restyled
  unfold Reader.succeeds
  generalize p s = a at matched
  generalize q t = b at matched
  cases matched with
  | ok _ _ _ _ => exact .ok rfl restyled (.refl s) (.refl t)
  | miss _ _ => exact .ok rfl restyled (.refl s) (.refl t)
  | halt _ _ => exact .ok rfl restyled (.refl s) (.refl t)
  | torn first second => exact .torn first second

theorem mapErrors {onMiss onHalt : ε → Reply δ α} (agree : Agree n m least view p q)
    (missed : ∀ {s t : List Char} {error other : ε}, Within error s → Within other t →
      Matched least view s t (onMiss error) (onMiss other))
    (halted : ∀ {s t : List Char} {error other : ε}, Within error s → Within other t →
      Matched least view s t (onHalt error) (onHalt other)) :
    Agree n m least view (Reader.mapErrors p onMiss onHalt)
      (Reader.mapErrors q onMiss onHalt) := by
  constructor
  intro s t sBound tBound restyled
  have matched := agree.matched sBound tBound restyled
  unfold Reader.mapErrors
  generalize p s = a at matched
  generalize q t = b at matched
  cases matched with
  | ok same restyled firstLeft secondLeft => exact .ok same restyled firstLeft secondLeft
  | miss first second => exact missed first second
  | halt first second => exact halted first second
  | torn first second => exact .torn first second

/-! ### Repetition -/

/-- Clocks that are not shorter than their texts do not run out before them.  At
the end of a text a round misses, so that it does not matter which of the two
clocks has more left there. -/
theorem iterate {step other : α → Reader ε α}
    (agree : ∀ a b, view a = view b → Agree n m 1 view (step a) (other b))
    (stops : ∀ value, Misses (step value) []) {clock otherClock s t : List Char} {a b : α}
    (sClock : s.length ≤ clock.length) (tClock : t.length ≤ otherClock.length)
    (sBound : s.length < n) (tBound : t.length < m) (same : view a = view b)
    (restyled : Restyled s t) :
    Matched 0 view s t (Reader.iterate step clock a s) (Reader.iterate other otherClock b t) := by
  induction clock generalizing otherClock s t a b with
  | nil =>
      obtain rfl := List.eq_nil_of_length_eq_zero (Nat.le_zero.mp sClock)
      obtain rfl := restyled.eq_nil
      have stop := (agree a b same).misses sBound tBound restyled (stops a)
      rw [iterate_of_rounds (.none b []) stop tClock]
      exact .ok same .nil (.refl []) (.refl [])
  | cons _ clock ih =>
      cases otherClock with
      | nil =>
          obtain rfl := List.eq_nil_of_length_eq_zero (Nat.le_zero.mp tClock)
          obtain rfl := restyled.symm.eq_nil
          rw [iterate_of_rounds (.none a []) (stops a) sClock]
          exact .ok same .nil (.refl []) (.refl [])
      | cons _ otherClock =>
          have matched := (agree a b same).matched sBound tBound restyled
          unfold Reader.iterate
          generalize step a s = reply at matched
          generalize other b t = otherReply at matched
          cases matched with
          | ok next rest firstLeft secondLeft =>
              have sLeft := firstLeft.shorter
              have tLeft := secondLeft.shorter
              simp only [List.length_cons] at sClock tClock
              have rounds := ih (by omega) (Nat.le_of_succ_le_succ (tLeft.trans tClock)) (by omega)
                (by omega) next rest
              exact (rounds.after firstLeft secondLeft).mono (Nat.zero_le _)
          | miss _ _ => exact .ok same restyled (.refl s) (.refl t)
          | halt first second => exact .halt first second
          | torn first second => exact .torn first second

theorem repeating {step other : α → Reader ε α} {value value' : α} (same : view value = view value')
    (agree : ∀ a b, view a = view b → Agree n m 1 view (step a) (other b))
    (stops : ∀ value, Misses (step value) []) :
    Agree n m 0 view (Reader.repeating step value) (Reader.repeating other value') :=
  ⟨fun sBound tBound restyled =>
    iterate agree stops (Nat.le_refl _) (Nat.le_refl _) sBound tBound same restyled⟩

theorem many (agree : Agree n m 1 view p q) (stops : Misses p []) :
    Agree n m 0 (List.map view) (Reader.many p) (Reader.many q) := by
  have gathered : Agree n m 0 (List.map view)
      (Reader.repeating (fun values => do return (← p) :: values) [])
      (Reader.repeating (fun values => do return (← q) :: values) []) := by
    apply repeating rfl
    · intro values others same
      exact agree.map fun a b alike => by simp [alike, same]
    · exact fun values => stops.bind _
  exact gathered.map fun values others same => by simp [same]

theorem many1 (agree : Agree n m 1 view p q) (stops : Misses p []) :
    Agree n m 1 (List.map view) (Reader.many1 p) (Reader.many1 q) :=
  agree.bind fun a b alike => (agree.many stops).map fun rest left same => by simp [alike, same]

theorem separatedList1 {separator separator' : Reader ε β} (agree : Agree n m 1 view p q)
    (separates : Agree n m 1 look separator separator') (stops : Misses separator []) :
    Agree n m 1 (List.map view) (Reader.separatedList1 separator p)
      (Reader.separatedList1 separator' q) := by
  apply agree.bind
  intro a b alike
  have item : Agree n m 1 view (do let _ ← separator; p) (do let _ ← separator'; q) :=
    separates.bind fun _ _ _ => agree
  exact (item.many (stops.bind _)).map fun rest left same => by simp [alike, same]

theorem separatedList {separator separator' : Reader ε β} (agree : Agree n m 1 view p q)
    (separates : Agree n m 1 look separator separator') (stops : Misses separator []) :
    Agree n m 0 (List.map view) (Reader.separatedList separator p)
      (Reader.separatedList separator' q) := by
  apply (agree.separatedList1 separates stops).optional.map
  intro found other same
  rw [map_getD_nil, map_getD_nil, same]

end Agree

end Reader

end TripleTables.Sql
