/-!
# Readers

A reader takes the text that is left and either reads a value and gives back
the rest, or fails.  A failure is of one of two kinds: after a *miss* another
reading may be tried at the same place, after a *halt* none is.  A reader may
also break down: the text is *torn* where a cut falls inside a character, and
then there is neither a value nor an error.

`Reader.many` and the lists read as long as they can.  The text itself is
their clock: every round that succeeds takes at least one character away, so
a text never holds more rounds than characters.
-/

namespace TripleTables.Sql

/-- The outcome of a reader. -/
inductive Reply (ε α : Type) where
  | ok (value : α) (rest : List Char)
  /-- Nothing to read here; something else may be tried. -/
  | miss (error : ε)
  /-- The text is wrong whatever else is tried. -/
  | halt (error : ε)
  /-- The text was to be cut inside a character, in what is left from `place`
  on.  No reader goes on from there. -/
  | torn (place : List Char)
deriving Repr

/-- Reads a value from the front of a text. -/
def Reader (ε α : Type) : Type :=
  List Char → Reply ε α

namespace Reader

variable {ε δ α β γ : Type}

/-- Reads nothing. -/
@[inline]
protected def pure (value : α) : Reader ε α :=
  fun s => .ok value s

/-- Reads one thing and then another that may depend on it. -/
@[inline]
protected def bind (p : Reader ε α) (f : α → Reader ε β) : Reader ε β :=
  fun s =>
    match p s with
    | .ok value rest => f value rest
    | .miss error => .miss error
    | .halt error => .halt error
    | .torn place => .torn place

instance : Monad (Reader ε) where
  pure := Reader.pure
  bind := Reader.bind

@[simp]
theorem pure_apply (value : α) (s : List Char) :
    (pure value : Reader ε α) s = .ok value s :=
  rfl

theorem bind_apply (p : Reader ε α) (f : α → Reader ε β) (s : List Char) :
    (p >>= f) s =
      match p s with
      | .ok value rest => f value rest
      | .miss error => .miss error
      | .halt error => .halt error
      | .torn place => .torn place :=
  rfl

/-- Reads by the second reader where the first misses.  If both miss, the
second's error counts. -/
def orElse (p q : Reader ε α) : Reader ε α :=
  fun s =>
    match p s with
    | .miss _ => q s
    | reply => reply

/-- Reads by the first of the readers that does not miss; if all miss, the
last one's error counts. -/
def firstOf (first : Reader ε α) : List (Reader ε α) → Reader ε α
  | [] => first
  | next :: rest => orElse first (firstOf next rest)

/-- Reads a value if there is one. -/
def optional (p : Reader ε α) : Reader ε (Option α) :=
  fun s =>
    match p s with
    | .ok value rest => .ok (some value) rest
    | .miss _ => .ok none s
    | .halt error => .halt error
    | .torn place => .torn place

/-- Reads by the first reader where it succeeds, and by the second where the
first fails in whichever way. -/
def orAfterFailure (p q : Reader ε α) : Reader ε α :=
  fun s =>
    match p s with
    | .ok value rest => .ok value rest
    | .miss _ => q s
    | .halt _ => q s
    | .torn place => .torn place

/-- Tells whether a reader succeeds here, and reads nothing. -/
def succeeds (p : Reader ε α) : Reader ε Bool :=
  fun s =>
    match p s with
    | .ok _ _ => .ok true s
    | .miss _ => .ok false s
    | .halt _ => .ok false s
    | .torn place => .torn place

/-- The same reading with the errors of its two kinds changed. -/
def mapErrors (p : Reader ε α) (onMiss onHalt : ε → Reply δ α) : Reader δ α :=
  fun s =>
    match p s with
    | .ok value rest => .ok value rest
    | .miss error => onMiss error
    | .halt error => onHalt error
    | .torn place => .torn place

/-! ## Repetition -/

/-- Reads rounds until one misses, at most one a character of `clock`; the
rounds change a value.  A round that misses takes nothing. -/
def iterate (step : α → Reader ε α) : List Char → α → Reader ε α
  | [], value => fun s => .ok value s
  | _ :: clock, value => fun s =>
      match step value s with
      | .ok next rest => iterate step clock next rest
      | .miss _ => .ok value s
      | .halt error => .halt error
      | .torn place => .torn place

/-- Changes a value by rounds for as long as they succeed. -/
def repeating (step : α → Reader ε α) (value : α) : Reader ε α :=
  fun s => iterate step s value s

/-- Reads as many values as there are. -/
def many (p : Reader ε α) : Reader ε (List α) := do
  let values ← repeating (fun values => do return (← p) :: values) []
  return values.reverse

/-- Reads one or more values. -/
def many1 (p : Reader ε α) : Reader ε (List α) := do
  let first ← p
  let rest ← many p
  return first :: rest

/-- Reads one or more values with a separator between them.  A separator that
no value follows is left. -/
def separatedList1 (separator : Reader ε β) (p : Reader ε α) : Reader ε (List α) := do
  let first ← p
  let rest ← many (do let _ ← separator; p)
  return first :: rest

/-- Reads values with a separator between them, or none at all. -/
def separatedList (separator : Reader ε β) (p : Reader ε α) : Reader ε (List α) := do
  return (← optional (separatedList1 separator p)).getD []

end Reader

end TripleTables.Sql
