import TripleTables.Document
import TripleTables.Yaml.Scalar

/-!
# Names, tags and directives of YAML

A node may have a name, by which it can be referred to later, and a tag.  A tag
is written with a handle, which stands for the start of the tag, and the rest;
directives say what the handles of a document stand for.  Any byte but zero may
be part of a tag: a zero byte ends what it is written in, and the rest of that is
passed over.
-/

namespace TripleTables.Yaml

/-! ## Names -/

/-- A name is followed by a space or one of these. -/
def endsName : List Char → Bool
  | [] => true
  | c :: _ => isSpace c || ['?', ':', ',', ']', '\x7d', '%', '@', '\x60'].contains c

/-- Reads the name of a node after its mark. -/
def name? (place : Place) : Option (List Char × Place) :=
  let (name, after) := place.span isWord
  if !name.isEmpty && endsName after.rest then some (name, after) else none

/-! ## Tags -/

/-- A tag as it is written. -/
structure WrittenTag where
  /-- What stands for the start of the tag; nothing where the tag is whole. -/
  handle : List Char
  suffix : Tag
deriving DecidableEq, Repr

/-- The characters of a tag, names apart. -/
def tagMarks : List Char :=
  [';', '/', '?', ':', '@', '&', '=', '+', '$', '.', '%', '!', '~', '*', '\'', '(', ')']

/-- A character of a tag.  `whole` says that the tag is not shortened, in which
case some more characters may stand in it. -/
def isTagChar (whole : Bool) (c : Char) : Bool :=
  isWord c || tagMarks.contains c || (whole && [',', '[', ']'].contains c)

/-- The count of bytes that a character takes whose first byte is given. -/
def byteCount? (byte : Nat) : Option Nat :=
  if byte < 0x80 then some 1
  else if byte / 0x20 = 0x6 then some 2
  else if byte / 0x10 = 0xe then some 3
  else if byte / 0x8 = 0x1e then some 4
  else none

/-- Where the text of a tag stands. -/
inductive TagText where
  | plain
  /-- After a percent sign, or before one that has to follow.  `left` bytes of a
  character are still to come, as many as its first byte says. -/
  | byte (marked : Bool) (high : Option Nat) (left : Option Nat)

/-- The state after a byte that was written with a percent sign. -/
def TagText.afterByte (left : Option Nat) (byte : Nat) : Option TagText := do
  let left ←
    match left with
    | none => byteCount? byte
    | some left => if byte / 0x40 = 2 then some left else none
  return if left = 1 then .plain else .byte false none (some (left - 1))

/-- Reads on in the text of a tag, in which a percent sign and two hexadecimal
digits are a byte of a character.  `bytes` is the tag so far, in reverse. -/
def tagFrom (whole : Bool) (bytes : Tag) : TagText → Spot → List Char → Option (Tag × Place)
  | .plain, spot, [] => some (bytes.reverse, ⟨[], spot⟩)
  | .byte .., _, [] => none
  | .plain, spot, c :: rest =>
      if c = '%' then tagFrom whole bytes (.byte true none none) (spot.after c) rest
      else if isTagChar whole c then
        tagFrom whole ((String.utf8EncodeChar c).reverse ++ bytes) .plain (spot.after c) rest
      else some (bytes.reverse, ⟨c :: rest, spot⟩)
  | .byte false high left, spot, c :: rest =>
      if c = '%' then tagFrom whole bytes (.byte true high left) (spot.after c) rest else none
  | .byte true none left, spot, c :: rest => do
      tagFrom whole bytes (.byte true (some (← hexValue? c)) left) (spot.after c) rest
  | .byte true (some high) left, spot, c :: rest => do
      let byte := 16 * high + (← hexValue? c)
      tagFrom whole (.ofNat byte :: bytes) (← TagText.afterByte left byte) (spot.after c) rest

/-- Reads the text of a tag up to a zero byte, and passes over the rest of it. -/
def tagText (whole : Bool) (place : Place) : Option (Tag × Place) := do
  let (bytes, after) ← tagFrom whole [] .plain place.spot place.rest
  return (bytes.takeWhile (· != 0), after)

/-- Reads the text of a tag, where something has to be written. -/
def tagText? (whole : Bool) (place : Place) : Option (Tag × Place) := do
  let (text, after) ← tagText whole place
  if after = place then none else some (text, after)

/-- Reads a handle: an exclamation mark, and perhaps a name and another one. -/
def handle? (place : Place) : Option (List Char × Place) :=
  match place.rest with
  | '!' :: _ =>
      let (name, after) := (place.drop 1).span isWord
      if after.rest.head? = some '!' then some ('!' :: (name ++ ['!']), after.drop 1)
      else some ('!' :: name, after)
  | _ => none

/-- The handle has a second exclamation mark. -/
def isClosed (handle : List Char) : Bool :=
  1 < handle.length && handle.getLast? == some '!'

/-- Reads a tag in angle brackets after the first of them. -/
def wholeTag (place : Place) : Option (WrittenTag × Place) := do
  let (text, after) ← tagText? true place
  if after.rest.head? = some '>' then some (⟨[], text⟩, after.drop 1) else none

/-- Reads a tag with a handle.  A name after a single exclamation mark belongs
to the rest of the tag, and an exclamation mark alone is a whole tag. -/
def shortTag (place : Place) : Option (WrittenTag × Place) := do
  let (handle, after) ← handle? place
  if isClosed handle then
    let (suffix, after) ← tagText? false after
    return (⟨handle, suffix⟩, after)
  else
    let (suffix, after) ← tagText false after
    let suffix := .ofChars handle.tail ++ suffix
    return (if suffix.isEmpty then ⟨[], .ofChars ['!']⟩ else ⟨['!'], suffix⟩, after)

/-- Reads a tag.  A space follows it, or a comma inside brackets. -/
def tag? (flow : Bool) (place : Place) : Option (WrittenTag × Place) := do
  let (tag, after) ←
    match place.rest with
    | '!' :: '<' :: _ => wholeTag (place.drop 2)
    | _ => shortTag place
  if atSpace after.rest || (flow && after.rest.head? == some ',') then some (tag, after) else none

/-! ## Directives -/

/-- A directive. -/
inductive Directive where
  /-- The version of YAML. -/
  | version (major minor : Nat)
  /-- What a handle stands for. -/
  | handle (handle : List Char) (start : Tag)
deriving DecidableEq, Repr

/-- Reads a number of at most nine digits. -/
def versionNumber (place : Place) : Option (Nat × Place) :=
  let (digits, after) := place.span Char.isDigit
  if digits.isEmpty || 9 < digits.length then none
  else some (digits.foldl (fun value c => 10 * value + (c.toNat - '0'.toNat)) 0, after)

/-- Reads the version after its name. -/
def versionDirective (place : Place) : Option (Directive × Place) := do
  let (major, after) ← versionNumber place.skipBlanks
  if after.rest.head? ≠ some '.' then
    none
  let (minor, after) ← versionNumber (after.drop 1)
  return (.version major minor, after)

/-- Reads what a handle stands for after the name of the directive. -/
def handleDirective (place : Place) : Option (Directive × Place) := do
  let (handle, after) ← handle? place.skipBlanks
  let start := after.skipBlanks
  if start = after || !(isClosed handle || handle = ['!']) then
    none
  let (text, after) ← tagText? true start
  if atSpace after.rest then some (.handle handle text, after) else none

/-- Reads a directive after its mark, with its line. -/
def directive? (place : Place) : Option (Directive × Place) := do
  let (name, after) := place.span isWord
  if !atSpace after.rest then
    none
  let (directive, after) ←
    match String.ofList name with
    | "YAML" => versionDirective after
    | "TAG" => handleDirective after
    | _ => none
  return (directive, ← after.endLine?)

end TripleTables.Yaml
