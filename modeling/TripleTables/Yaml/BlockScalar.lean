import TripleTables.Yaml.Scalar

/-!
# Scalars of YAML as blocks of lines

A block scalar has a header and then lines at or behind a column of its own.
The lines of a literal block are kept; those of a folded block are joined where
neither of two neighbours starts with a blank.
-/

namespace TripleTables.Yaml

/-- What happens to the ends of lines at the end of a block. -/
inductive Chomping where
  /-- All are dropped. -/
  | strip
  /-- One stays. -/
  | clip
  /-- All stay. -/
  | keep
deriving DecidableEq, Repr

/-- The header of a block. -/
structure BlockHeader where
  chomping : Chomping := .clip
  /-- The count of columns that the lines stand behind what the block is in. -/
  depth : Option Nat := none
deriving DecidableEq, Repr

namespace BlockHeader

/-- Reads what a header says about the end, if it does. -/
def readChomping : List Char → Option Chomping × List Char
  | '+' :: rest => (some .keep, rest)
  | '-' :: rest => (some .strip, rest)
  | text => (none, text)

/-- Reads what a header says about the depth, if it does.  The depth is not
zero. -/
def readDepth : List Char → Option (Option Nat × List Char)
  | [] => some (none, [])
  | c :: rest =>
      if c = '0' then none
      else if c.isDigit then some (some (c.toNat - '0'.toNat), rest)
      else some (none, c :: rest)

/-- Reads a header, whose two parts may stand in any order. -/
def read (text : List Char) : Option (BlockHeader × List Char) := do
  let (before, text) := readChomping text
  let (depth, text) ← readDepth text
  let (after, text) :=
    if before.isNone && depth.isSome then readChomping text else (none, text)
  return (⟨(before.or after).getD .clip, depth⟩, text)

end BlockHeader

/-! ## The column of a block -/

/-- What stands before the first line of a block that is not empty. -/
structure BlockStart where
  /-- The greatest column that was reached. -/
  deepest : Nat
  /-- The ends of the empty lines, the latest first. -/
  breaks : List Char
  place : Place

/-- Skips indentation and empty lines.  A tab is no indentation. -/
def blockStart (deepest : Nat) (breaks : List Char) : Spot → List Char → Option BlockStart
  | spot, [] => some ⟨max deepest spot.column, breaks, ⟨[], spot⟩⟩
  | spot, c :: rest =>
      if c = ' ' then blockStart deepest breaks (spot.after c) rest
      else if c = '\t' then none
      else if isBreak c then
        blockStart (max deepest spot.column) (c :: breaks) (spot.after c) rest
      else some ⟨max deepest spot.column, breaks, ⟨c :: rest, spot⟩⟩

/-! ## The lines of a block -/

/-- The lines of a block that have been read. -/
structure BlockLines where
  /-- The text, in reverse. -/
  text : List Char := []
  /-- The end of the last line that is not empty. -/
  ending : List Char := []
  /-- The ends of the empty lines after it, the latest first. -/
  breaks : List Char := []
  /-- The last line that is not empty starts with a blank. -/
  indented : Bool := false

namespace BlockLines

/-- The lines with a new one that starts with a character. -/
def start (folded : Bool) (lines : BlockLines) (c : Char) : BlockLines :=
  let ending :=
    if folded && lines.ending == ['\n'] && !lines.indented && !isBlank c then
      if lines.breaks.isEmpty then [' '] else []
    else lines.ending
  { text := c :: (lines.breaks ++ (ending ++ lines.text)), indented := isBlank c }

/-- The lines with one more character in the last one. -/
def extend (lines : BlockLines) (c : Char) : BlockLines :=
  { lines with text := c :: lines.text }

/-- The lines as a text. -/
def chars (lines : BlockLines) : Chomping → List Char
  | .strip => lines.text.reverse
  | .clip => (lines.ending ++ lines.text).reverse
  | .keep => (lines.breaks ++ (lines.ending ++ lines.text)).reverse

end BlockLines

/-- Reads the lines of a block at a column.  `inside` says that the place is in
a line of it and not before one. -/
def blockLines (folded : Bool) (column : Nat) :
    (inside : Bool) → BlockLines → Spot → List Char → Option (BlockLines × Place)
  | _, lines, spot, [] => some (lines, ⟨[], spot⟩)
  | true, lines, spot, c :: rest =>
      if isBreak c then
        blockLines folded column false { lines with ending := [c] } (spot.after c) rest
      else blockLines folded column true (lines.extend c) (spot.after c) rest
  | false, lines, spot, c :: rest =>
      if spot.column < column && c == ' ' then
        blockLines folded column false lines (spot.after c) rest
      else if spot.column < column && c == '\t' then none
      else if isBreak c then
        blockLines folded column false { lines with breaks := c :: lines.breaks }
          (spot.after c) rest
      else if spot.column = column then
        blockLines folded column true (lines.start folded c) (spot.after c) rest
      else some (lines, ⟨c :: rest, spot⟩)

/-- The column of the lines of a block after its header, the ends of the empty
lines that have been passed to find it, and the place after those.  Without a
depth in the header the deepest of the empty lines at the start and of the
first other line tells the column. -/
def blockColumn (header : BlockHeader) (least : Nat) (place : Place) :
    Option (Nat × List Char × Place) :=
  match header.depth with
  | some depth => some (least - 1 + depth, [], place)
  | none =>
      (blockStart 0 [] place.spot place.rest).map fun found =>
        (max found.deepest (max least 1), found.breaks, found.place)

/-- Reads a block after its first character.  `least` is the least column of
its lines. -/
def block (folded : Bool) (least : Nat) (place : Place) : Option (List Char × Place) := do
  let (header, rest) ← BlockHeader.read place.rest
  let place ← Place.endLine? ⟨rest, place.spot⟩
  let (column, breaks, place) ← blockColumn header least place
  let (lines, after) ← blockLines folded column false { breaks } place.spot place.rest
  return (lines.chars header.chomping, after)

end TripleTables.Yaml
