import TripleTables.Yaml.Place

/-!
# Scalars of YAML on one or more lines

A scalar without quotes, in single quotes or in double quotes may run over
several lines.  Blanks around the end of a line are dropped.  One line feed is
a space, and of several the first is dropped; a separator of Unicode stays.
-/

namespace TripleTables.Yaml

/-! ## Gaps between words -/

/-- What stands between two words of a scalar. -/
inductive Gap where
  | none
  /-- Blanks, the latest first. -/
  | blanks (text : List Char)
  /-- Ends of lines: the first one, if it counts, and the others, the latest
  first. -/
  | breaks (first : Option Char) (others : List Char)
deriving Repr

namespace Gap

/-- The gap with a blank added. -/
def blank (c : Char) : Gap → Gap
  | .none => .blanks [c]
  | .blanks text => .blanks (c :: text)
  | .breaks first others => .breaks first others

/-- The gap with the end of a line added. -/
def lineBreak (c : Char) : Gap → Gap
  | .breaks first others => .breaks first (c :: others)
  | _ => .breaks (some c) []

/-- What the scalar has for the gap, in reverse. -/
def chars : Gap → List Char
  | .none => []
  | .blanks text => text
  | .breaks .none others => others
  | .breaks (some '\n') [] => [' ']
  | .breaks (some '\n') others => others
  | .breaks (some first) others => others ++ [first]

/-- Nothing stands between the words. -/
def isNone : Gap → Bool
  | .none => true
  | _ => false

/-- A line ends between the words. -/
def isBroken : Gap → Bool
  | .breaks _ _ => true
  | _ => false

end Gap

/-! ## Without quotes -/

/-- A scalar without quotes ends before this character. -/
def endsPlain (flow : Bool) (gap : Gap) (c : Char) (rest : List Char) : Bool :=
  (c == ':' && atSpace rest) || (c == '#' && !gap.isNone) || (flow && isFlowMark c)

/-- Inside brackets a colon before such a character is an error. -/
def isStrayColon (flow : Bool) (c : Char) (rest : List Char) : Bool :=
  flow && c == ':' &&
    match rest with
    | next :: _ => isFlowMark next || next == '?'
    | [] => false

/-- A scalar that has been read without quotes. -/
structure PlainScalar where
  text : List Char
  /-- A line ends between the scalar and the place after it. -/
  endsLine : Bool
  /-- The place after the scalar and the spaces behind it. -/
  after : Place

/-- Reads on in a scalar without quotes.  `word` is the scalar so far, in
reverse, and `least` the least column of further lines, which counts outside
brackets.  A tab before that column counts everywhere, as an error. -/
def plainFrom (flow : Bool) (least : Nat) (word : List Char) :
    Gap → Spot → List Char → Option PlainScalar
  | gap, spot, [] => some ⟨word.reverse, gap.isBroken, ⟨[], spot⟩⟩
  | gap, spot, c :: rest =>
      let stop : PlainScalar := ⟨word.reverse, gap.isBroken, ⟨c :: rest, spot⟩⟩
      if isBreak c then plainFrom flow least word (gap.lineBreak c) (spot.after c) rest
      else if isBlank c then
        if gap.isBroken && c == '\t' && spot.column < least then none
        else plainFrom flow least word (gap.blank c) (spot.after c) rest
      else if gap.isBroken && !flow && spot.column < least then some stop
      else if spot.column = 0 && atDocumentMark (c :: rest) then some stop
      else if isStrayColon flow c rest then none
      else if endsPlain flow gap c rest then some stop
      else plainFrom flow least (c :: (gap.chars ++ word)) .none (spot.after c) rest

/-- Reads a scalar without quotes. -/
def plain (flow : Bool) (least : Nat) (place : Place) : Option PlainScalar :=
  plainFrom flow least [] .none place.spot place.rest

/-! ## In quotes -/

/-- Reads on in a scalar in single quotes.  `word` is the scalar so far, in
reverse.  The mark of a document is an error. -/
def singleFrom (word : List Char) : Gap → Spot → List Char → Option (List Char × Place)
  | _, _, [] => none
  | gap, spot, '\'' :: '\'' :: rest =>
      singleFrom ('\'' :: (gap.chars ++ word)) .none ((spot.after '\'').after '\'') rest
  | gap, spot, c :: rest =>
      if c = '\'' then some ((gap.chars ++ word).reverse, ⟨rest, spot.after c⟩)
      else if isBreak c then singleFrom word (gap.lineBreak c) (spot.after c) rest
      else if isBlank c then singleFrom word (gap.blank c) (spot.after c) rest
      else if spot.column = 0 && atDocumentMark (c :: rest) then none
      else singleFrom (c :: (gap.chars ++ word)) .none (spot.after c) rest

/-- What a backslash and a letter stand for. -/
def escapes : List (Char × Char) :=
  [ ('0', '\x00'), ('a', '\x07'), ('b', '\x08'), ('t', '\t'), ('\t', '\t'), ('n', '\n')
  , ('v', '\x0b'), ('f', '\x0c'), ('r', '\r'), ('e', '\x1b'), (' ', ' '), ('"', '"')
  , ('/', '/'), ('\\', '\\'), ('N', '\u0085'), ('_', '\u00a0'), ('L', '\u2028')
  , ('P', '\u2029') ]

/-- The count of hexadecimal digits after a backslash and a letter. -/
def codeLength? : Char → Option Nat
  | 'x' => some 2
  | 'u' => some 4
  | 'U' => some 8
  | _ => none

/-- The value of a hexadecimal digit. -/
def hexValue? (c : Char) : Option Nat :=
  if c.isDigit then some (c.toNat - '0'.toNat)
  else if 'a' ≤ c ∧ c ≤ 'f' then some (c.toNat - 'a'.toNat + 10)
  else if 'A' ≤ c ∧ c ≤ 'F' then some (c.toNat - 'A'.toNat + 10)
  else none

/-- The character with a code. -/
def charOf? (code : Nat) : Option Char :=
  if code.isValidChar then some (Char.ofNat code) else none

/-- Where a scalar in double quotes stands. -/
inductive Quoting where
  | text (gap : Gap)
  /-- Directly after a backslash. -/
  | escape
  /-- Before the given count of digits of a code. -/
  | code (left value : Nat)

/-- Reads on in a scalar in double quotes.  `word` is the scalar so far, in
reverse.  After a backslash the end of a line does not count, and the mark of a
document is an error. -/
def doubleFrom (word : List Char) : Quoting → Spot → List Char → Option (List Char × Place)
  | _, _, [] => none
  | .text gap, spot, c :: rest =>
      if c = '"' then some ((gap.chars ++ word).reverse, ⟨rest, spot.after c⟩)
      else if c = '\\' then doubleFrom (gap.chars ++ word) .escape (spot.after c) rest
      else if isBreak c then doubleFrom word (.text (gap.lineBreak c)) (spot.after c) rest
      else if isBlank c then doubleFrom word (.text (gap.blank c)) (spot.after c) rest
      else if spot.column = 0 && atDocumentMark (c :: rest) then none
      else doubleFrom (c :: (gap.chars ++ word)) (.text .none) (spot.after c) rest
  | .escape, spot, c :: rest =>
      if isBreak c then doubleFrom word (.text (.breaks none [])) (spot.after c) rest
      else
        match escapes.lookup c, codeLength? c with
        | some meant, _ => doubleFrom (meant :: word) (.text .none) (spot.after c) rest
        | _, some count => doubleFrom word (.code count 0) (spot.after c) rest
        | _, _ => none
  | .code left value, spot, c :: rest => do
      let value := 16 * value + (← hexValue? c)
      if left = 1 then
        doubleFrom ((← charOf? value) :: word) (.text .none) (spot.after c) rest
      else doubleFrom word (.code (left - 1) value) (spot.after c) rest

/-- Reads a scalar in quotes. -/
def quoted (place : Place) : Option (List Char × Place) :=
  match place.rest with
  | '\'' :: rest => singleFrom [] .none (place.spot.after '\'') rest
  | '"' :: rest => doubleFrom [] (.text .none) (place.spot.after '"') rest
  | _ => none

end TripleTables.Yaml
