import TripleTables.Document
import TripleTables.Yaml.BlockScalar
import TripleTables.Yaml.Tag

/-!
# Tokens of YAML

A text is cut into tokens from left to right.  Outside brackets the columns of
its lines open and close collections.  That something was a key shows only by
the colon after it: the place where a key may have started is kept, and the
tokens that a key needs are put there when the colon comes.  A key has to stand
on one line with its colon and may not be too long.
-/

namespace TripleTables.Yaml

/-- A token. -/
inductive Token where
  | documentStart
  | documentEnd
  | directive (directive : Directive)
  /-- A sequence whose items are told by their column starts. -/
  | blockSequence
  /-- A mapping whose keys are told by their column starts. -/
  | blockMapping
  /-- A collection that is told by columns ends. -/
  | blockEnd
  | flowSequence
  | flowSequenceEnd
  | flowMapping
  | flowMappingEnd
  /-- The hyphen before an item. -/
  | item
  /-- The comma between two items or entries. -/
  | comma
  /-- Before a key. -/
  | key
  /-- Before a value. -/
  | value
  /-- A reference to a named node. -/
  | reference (name : List Char)
  /-- The name of the node that follows. -/
  | anchor (name : List Char)
  | tag (tag : WrittenTag)
  | scalar (style : ScalarStyle) (text : List Char)
deriving DecidableEq, Repr

/-! ## The layout so far -/

/-- A place where a key may have started. -/
structure Candidate where
  /-- Nothing but a key may stand there. -/
  required : Bool
  /-- The count of tokens before it. -/
  position : Nat
  spot : Spot
deriving DecidableEq, Repr

/-- The greatest length of a key with the blanks before its colon, in bytes. -/
def Candidate.longest : Nat := 1024

/-- What starts at the candidate can no longer be a key at a position. -/
def Candidate.isOver (candidate : Candidate) (spot : Spot) : Bool :=
  candidate.spot.line < spot.line ||
    candidate.spot.bytes + longest < spot.bytes

/-- What is left of the text, and what has been found in it. -/
structure Layout where
  place : Place
  /-- The tokens, the latest first. -/
  tokens : List Token := []
  /-- The count of the tokens. -/
  count : Nat := 0
  /-- The columns of the open collections outside brackets, the innermost
  first. -/
  levels : List Nat := []
  /-- Where a key may have started, between the innermost brackets. -/
  candidate : Option Candidate := none
  /-- The same between the brackets around those, the innermost first. -/
  outer : List (Option Candidate) := []
  /-- A key may start here. -/
  keysAllowed : Bool := true
deriving Repr

namespace Layout

/-- The place is between brackets. -/
def inFlow (layout : Layout) : Bool :=
  !layout.outer.isEmpty

/-- The least column of what is inside the innermost collection. -/
def least (layout : Layout) : Nat :=
  match layout.levels with
  | [] => 0
  | level :: _ => level + 1

/-- The layout with a token more. -/
def emit (layout : Layout) (token : Token) : Layout :=
  { layout with tokens := token :: layout.tokens, count := layout.count + 1 }

/-- The layout with a token that takes a count of characters of the line. -/
def take (layout : Layout) (count : Nat) (token : Token) : Layout :=
  { layout.emit token with place := layout.place.drop count }

/-- The layout with a token put after a count of tokens. -/
def insert (layout : Layout) (position : Nat) (token : Token) : Layout :=
  let later := layout.count - position
  { layout with
    tokens := layout.tokens.take later ++ token :: layout.tokens.drop later
    count := layout.count + 1 }

/-- The layout with a collection opened at a column, unless one is open there
or further right, or the place is between brackets. -/
def openLevel (layout : Layout) (column position : Nat) (token : Token) : Layout :=
  if layout.inFlow || column < layout.least then layout
  else { layout.insert position token with levels := column :: layout.levels }

/-- The layout with a collection opened where it stands. -/
def openHere (layout : Layout) (token : Token) : Layout :=
  layout.openLevel layout.place.spot.column layout.count token

/-- The layout with the collections closed whose columns have a property. -/
def closeLevels (layout : Layout) (closes : Nat → Bool) : Layout :=
  if layout.inFlow then layout
  else
    let closed := layout.levels.takeWhile closes
    { layout with
      tokens := closed.map (fun _ => Token.blockEnd) ++ layout.tokens
      count := layout.count + closed.length
      levels := layout.levels.dropWhile closes }

/-- The layout without the candidate of the innermost brackets, which must not
have to be a key. -/
def dropCandidate (layout : Layout) : Option Layout :=
  match layout.candidate with
  | some ⟨true, _, _⟩ => none
  | _ => some { layout with candidate := none }

/-- The layout with a candidate here, if a key may start here. -/
def addCandidate (layout : Layout) : Option Layout := do
  if layout.keysAllowed then
    let spot := layout.place.spot
    let required := !layout.inFlow && layout.levels.head? == some spot.column
    return { ← layout.dropCandidate with
      candidate := some ⟨required, layout.count, spot⟩ }
  else
    return layout

/-- A candidate if it is not over; one that has to be a key must not be. -/
def refresh (spot : Spot) : Option Candidate → Option (Option Candidate)
  | none => some none
  | some candidate =>
      if !candidate.isOver spot then some (some candidate)
      else if candidate.required then none
      else some none

/-- The layout without the candidates that are over. -/
def refreshed (layout : Layout) : Option Layout := do
  let spot := layout.place.spot
  return { layout with
    candidate := ← refresh spot layout.candidate
    outer := ← layout.outer.mapM (refresh spot) }

/-! ## Between tokens -/

/-- Skips spaces, ends of lines and comments.  A tab is skipped only where it
cannot be taken for indentation, and a byte order mark only at the start of a
line. -/
def skipFrom (flow : Bool) :
    (comment keysAllowed : Bool) → Spot → List Char → Place × Bool
  | _, keysAllowed, spot, [] => (⟨[], spot⟩, keysAllowed)
  | comment, keysAllowed, spot, c :: rest =>
      if isBreak c then skipFrom flow false (keysAllowed || !flow) (spot.after c) rest
      else if comment || c == '#' then skipFrom flow true keysAllowed (spot.after c) rest
      else if c == ' ' || (c == '\t' && (flow || !keysAllowed)) ||
          (c == '\ufeff' && spot.column = 0) then
        skipFrom flow false keysAllowed (spot.after c) rest
      else (⟨c :: rest, spot⟩, keysAllowed)

/-- The layout at the next token, with the collections closed that end before
it. -/
def skip (layout : Layout) : Option Layout := do
  let (place, keysAllowed) :=
    skipFrom layout.inFlow false layout.keysAllowed layout.place.spot layout.place.rest
  let layout ← refreshed { layout with place, keysAllowed }
  return layout.closeLevels (place.spot.column < ·)

end Layout

/-! ## What starts a token -/

/-- What the next characters start. -/
inductive Opening where
  | directive
  /-- The mark of a document. -/
  | document (token : Token)
  | bracket (token : Token)
  | closingBracket (token : Token)
  | comma
  | item
  | key
  | value
  | reference
  | anchor
  | tag
  | block (folded : Bool)
  | quoted
  | plain
deriving DecidableEq, Repr

/-- What the characters at a column start. -/
def opening? (flow : Bool) (column : Nat) (text : List Char) : Option Opening :=
  match text with
  | [] => none
  | c :: rest =>
      if column = 0 && c == '%' then some .directive
      else if column = 0 && atDocumentMark text then
        some (.document (if c = '-' then .documentStart else .documentEnd))
      else
        match c with
        | '[' => some (.bracket .flowSequence)
        | '\x7b' => some (.bracket .flowMapping)
        | ']' => some (.closingBracket .flowSequenceEnd)
        | '\x7d' => some (.closingBracket .flowMappingEnd)
        | ',' => some .comma
        | '-' => some (if atSpace rest then .item else .plain)
        | '?' => some (if flow || atSpace rest then .key else .plain)
        | ':' => some (if flow || atSpace rest then .value else .plain)
        | '*' => some .reference
        | '&' => some .anchor
        | '!' => some .tag
        | '|' => if flow then none else some (.block false)
        | '>' => if flow then none else some (.block true)
        | '\'' => some .quoted
        | '"' => some .quoted
        | '#' => none
        | '%' => none
        | '@' => none
        | '\x60' => none
        | c => if isSpace c then none else some .plain

namespace Layout

/-- The layout between documents. -/
def betweenDocuments (layout : Layout) : Option Layout := do
  let layout ← (layout.closeLevels fun _ => true).dropCandidate
  return { layout with keysAllowed := false }

/-- The layout before a node that may be a key; none may follow it directly. -/
def beforeNode (layout : Layout) : Option Layout := do
  return { ← layout.addCandidate with keysAllowed := false }

/-- The layout after a token that ends at a place. -/
def push (layout : Layout) (token : Token) (place : Place) : Layout :=
  { layout.emit token with place }

/-- Reads an opening bracket. -/
def readBracket (layout : Layout) (token : Token) : Option Layout := do
  let layout ← layout.addCandidate
  return { layout.take 1 token with
    candidate := none
    outer := layout.candidate :: layout.outer
    keysAllowed := true }

/-- Reads a closing bracket. -/
def readClosingBracket (layout : Layout) (token : Token) : Option Layout := do
  let layout ← layout.dropCandidate
  let layout := { layout.take 1 token with keysAllowed := false }
  match layout.outer with
  | [] => return layout
  | candidate :: outer => return { layout with candidate, outer }

/-- Reads the hyphen of an item.  Between brackets it is left to the reader of
nodes to refuse it. -/
def readItem (layout : Layout) : Option Layout := do
  if !layout.inFlow && !layout.keysAllowed then
    none
  let layout ← (layout.openHere .blockSequence).dropCandidate
  return { layout.take 1 .item with keysAllowed := true }

/-- Reads the question mark of a key. -/
def readKey (layout : Layout) : Option Layout := do
  if !layout.inFlow && !layout.keysAllowed then
    none
  let layout ← (layout.openHere .blockMapping).dropCandidate
  return { layout.take 1 .key with keysAllowed := !layout.inFlow }

/-- Reads the colon of a value.  If there is a candidate, it was a key. -/
def readValue (layout : Layout) : Option Layout :=
  match layout.candidate with
  | some ⟨_, position, spot⟩ =>
      let layout := (layout.insert position .key).openLevel spot.column position .blockMapping
      some { layout.take 1 .value with candidate := none, keysAllowed := false }
  | none =>
      if !layout.inFlow && !layout.keysAllowed then none
      else
        let layout := layout.openHere .blockMapping
        some { layout.take 1 .value with keysAllowed := !layout.inFlow }

/-- Reads a scalar without quotes.  A key may start on a line after it. -/
def readPlain (layout : Layout) : Option Layout := do
  let layout ← layout.beforeNode
  let found ← plain layout.inFlow layout.least layout.place
  return { layout.push (.scalar .plain found.text) found.after with
    keysAllowed := found.endsLine }

/-- Reads a token. -/
def readToken (layout : Layout) : Opening → Option Layout
  | .directive => do
      let layout ← layout.betweenDocuments
      let (directive, after) ← directive? (layout.place.drop 1)
      return layout.push (.directive directive) after
  | .document token => do return (← layout.betweenDocuments).take 3 token
  | .bracket token => layout.readBracket token
  | .closingBracket token => layout.readClosingBracket token
  | .comma => do return { (← layout.dropCandidate).take 1 .comma with keysAllowed := true }
  | .item => layout.readItem
  | .key => layout.readKey
  | .value => layout.readValue
  | .reference => do
      let layout ← layout.beforeNode
      let (name, after) ← name? (layout.place.drop 1)
      return layout.push (.reference name) after
  | .anchor => do
      let layout ← layout.beforeNode
      let (name, after) ← name? (layout.place.drop 1)
      return layout.push (.anchor name) after
  | .tag => do
      let layout ← layout.beforeNode
      let (tag, after) ← tag? layout.inFlow layout.place
      return layout.push (.tag tag) after
  | .block folded => do
      let layout ← layout.dropCandidate
      let (text, after) ← block folded layout.least (layout.place.drop 1)
      let style := if folded then ScalarStyle.quoted else .literal
      return { layout.push (.scalar style text) after with keysAllowed := true }
  | .quoted => do
      let layout ← layout.beforeNode
      let (text, after) ← quoted layout.place
      return layout.push (.scalar .quoted text) after
  | .plain => layout.readPlain

/-- The tokens of a layout at the end of its text. -/
def finish (layout : Layout) : Option (List Token) := do
  return (← layout.betweenDocuments).tokens.reverse

/-- Reads the tokens that are left, with a clock: every token takes at least
one character. -/
def readTokens : (clock : List Char) → Layout → Option (List Token)
  | [], layout => do (← layout.skip).finish
  | _ :: clock, layout => do
      let layout ← layout.skip
      if layout.place.rest.isEmpty then layout.finish
      else
        let found ← opening? layout.inFlow layout.place.spot.column layout.place.rest
        readTokens clock (← layout.readToken found)

end Layout

/-- The tokens of a text. -/
def tokens? (text : List Char) : Option (List Token) :=
  Layout.readTokens text { place := ⟨text, {}⟩ }

end TripleTables.Yaml
