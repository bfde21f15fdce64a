/-!
# Places in a text of YAML

The classes of characters that the layout of a text is made of, and where in
the text a character stands.  Three characters end a line here: the line feed,
as which the other usual line ends are read as well, and the two separators of
Unicode, which a scalar keeps.
-/

namespace TripleTables.Yaml

/-! ## Characters -/

/-- A space or a tab. -/
def isBlank (c : Char) : Bool :=
  c == ' ' || c == '\t'

/-- The end of a line. -/
def isBreak (c : Char) : Bool :=
  c == '\n' || c == '\u2028' || c == '\u2029'

/-- A blank or the end of a line. -/
def isSpace (c : Char) : Bool :=
  isBlank c || isBreak c

/-- A character of a name. -/
def isWord (c : Char) : Bool :=
  c.isAlphanum || c == '_' || c == '-'

/-- The characters that have a meaning of their own inside brackets. -/
def isFlowMark (c : Char) : Bool :=
  c == ',' || c == '[' || c == ']' || c == '\x7b' || c == '\x7d'

/-- The text ends here or goes on with a blank or the end of a line. -/
def atSpace : List Char → Bool
  | [] => true
  | c :: _ => isSpace c

/-- The text ends here or the line does. -/
def atLineEnd : List Char → Bool
  | [] => true
  | c :: _ => isBreak c

/-- The text starts with the mark of a document's start or end.  It is one
only at the start of a line. -/
def atDocumentMark : List Char → Bool
  | '-' :: '-' :: '-' :: rest => atSpace rest
  | '.' :: '.' :: '.' :: rest => atSpace rest
  | _ => false

/-- The characters that may stand in a text. -/
def isPrintable (c : Char) : Bool :=
  c == '\t' || c == '\n' || c == '\r' || (' ' ≤ c && c ≤ '~') || c == '\u0085' ||
    ('\u00a0' ≤ c && c != '\ufffe' && c != '\uffff')

/-- The text with the usual line ends written as line feeds. -/
def unifyBreaks : List Char → List Char
  | [] => []
  | '\r' :: '\n' :: rest => '\n' :: unifyBreaks rest
  | c :: rest => (if c = '\r' ∨ c = '\u0085' then '\n' else c) :: unifyBreaks rest

/-! ## Places -/

/-- The position of a character. -/
structure Spot where
  line : Nat := 0
  column : Nat := 0
  /-- The length of what stands before it on its line, in bytes of UTF-8. -/
  bytes : Nat := 0
deriving DecidableEq, Repr

/-- The position after a character. -/
def Spot.after (spot : Spot) (c : Char) : Spot :=
  if isBreak c then ⟨spot.line + 1, 0, 0⟩
  else ⟨spot.line, spot.column + 1, spot.bytes + c.utf8Size⟩

/-- What is left of a text, and the position where it starts. -/
structure Place where
  rest : List Char
  spot : Spot := {}
deriving DecidableEq, Repr

namespace Place

/-- The place after a count of characters. -/
def drop (place : Place) (count : Nat) : Place :=
  ⟨place.rest.drop count, (place.rest.take count).foldl Spot.after place.spot⟩

/-- The characters at the place that have a property, and the place after
them. -/
def span (place : Place) (keep : Char → Bool) : List Char × Place :=
  let (word, rest) := place.rest.span keep
  (word, ⟨rest, word.foldl Spot.after place.spot⟩)

/-- The place after blanks. -/
def skipBlanks (place : Place) : Place :=
  (place.span isBlank).2

/-- The place after the line, if only blanks and a comment are left on it. -/
def endLine? (place : Place) : Option Place :=
  let place := place.skipBlanks
  let rest :=
    if place.rest.head? = some '#' then place.rest.dropWhile (!isBreak ·) else place.rest
  match rest with
  | [] => some ⟨[], place.spot⟩
  | c :: rest => if isBreak c then some ⟨rest, place.spot.after c⟩ else none

end Place

end TripleTables.Yaml
