import TripleTables.Json

/-!
# Documents

What a settings or catalog file says, before its entries are given a meaning.
A scalar without quotes may be read in several ways; each reader decides by
what it looks for.  Every value of JSON is a document.
-/

namespace TripleTables

/-- How a scalar is written. -/
inductive ScalarStyle where
  /-- Without quotes. -/
  | plain
  /-- In quotes, or as a folded block. -/
  | quoted
  /-- As a block whose lines are kept. -/
  | literal
deriving DecidableEq, Repr

/-- A tag, which says what kind of value a scalar is.  It is a list of bytes,
which need not be those of a text. -/
abbrev Tag := List UInt8

/-- The tag that is written as a text. -/
def Tag.ofChars (text : List Char) : Tag := text.flatMap String.utf8EncodeChar

/-- A scalar, with its tag if it has one. -/
structure Scalar where
  style : ScalarStyle
  text : String
  tag : Option Tag := none
deriving DecidableEq, Repr

namespace Scalar

/-- The tag of what stands for nothing. -/
def nullTag : Tag := .ofChars "tag:yaml.org,2002:null".toList

/-- The tag of truth values. -/
def flagTag : Tag := .ofChars "tag:yaml.org,2002:bool".toList

/-- Nothing is written and nothing is said about it but a tag. -/
def isVoid (scalar : Scalar) : Bool :=
  scalar.style = .plain && scalar.text = ""

/-- The text stands for nothing. -/
def isNullText (text : String) : Bool :=
  ["~", "null", "Null", "NULL"].contains text

/-- Whether the scalar stands for nothing.  One that is tagged so has to be
written so. -/
def isNull? (scalar : Scalar) : Option Bool :=
  match scalar.style, scalar.tag with
  | .plain, none => some (scalar.text = "" || isNullText scalar.text)
  | .plain, some tag =>
      if tag = nullTag then if isNullText scalar.text then some true else none
      else some false
  | _, _ => some false

/-- The scalar may be read as a truth value. -/
def mayBeFlag (scalar : Scalar) : Bool :=
  match scalar.style with
  | .plain => true
  | .quoted => false
  | .literal => scalar.tag = some flagTag

/-- The truth value of a scalar. -/
def flag? (scalar : Scalar) : Option Bool :=
  if !scalar.mayBeFlag then none
  else if ["true", "True", "TRUE"].contains scalar.text then some true
  else if ["false", "False", "FALSE"].contains scalar.text then some false
  else none

end Scalar

/-- A document. -/
inductive Document where
  | scalar (content : Scalar)
  | null
  | flag (value : Bool)
  /-- A value that no reader takes, such as a number. -/
  | unreadable
  /-- The node with a number, which stands elsewhere. -/
  | reference (node : Nat)
  | sequence (items : List Document)
  /-- A sequence that may also be the values of a record, in order. -/
  | tuple (items : List Document)
  | mapping (entries : List (Document × Document))
deriving Repr

/-- A document, and the nodes that its references stand for.  Of two nodes with
one number the first is meant. -/
structure Source where
  root : Document
  nodes : List (Nat × Document) := []
deriving Repr

namespace Document

/-- The scalar with nothing in it. -/
def void : Document := .scalar ⟨.plain, "", none⟩

/-- A scalar in quotes. -/
def quoted (text : String) : Document := .scalar ⟨.quoted, text, none⟩

/-- Whether the document stands for nothing. -/
def isNull? : Document → Option Bool
  | .null => some true
  | .scalar content => content.isNull?
  | _ => some false

/-- The document is a scalar with nothing in it. -/
def isVoid : Document → Bool
  | .scalar content => content.isVoid
  | _ => false

/-- The text of a scalar. -/
def text? : Document → Option String
  | .scalar content => some content.text
  | _ => none

/-- The truth value of a document. -/
def flag? : Document → Option Bool
  | .flag value => some value
  | .scalar content => content.flag?
  | _ => none

/-- The items of a sequence; an empty scalar is an empty sequence. -/
def items? : Document → Option (List Document)
  | .sequence items => some items
  | .tuple items => some items
  | document => if document.isVoid then some [] else none

/-- The entries of a mapping; an empty scalar is an empty mapping. -/
def entries? : Document → Option (List (Document × Document))
  | .mapping entries => some entries
  | document => if document.isVoid then some [] else none

/-! ## Extent -/

mutual

/-- The extent of a document: a collection counts at its start and at its end,
anything else once. -/
def extent : Document → Nat
  | .sequence items => 2 + itemsExtent items
  | .tuple items => 2 + itemsExtent items
  | .mapping entries => 2 + entriesExtent entries
  | _ => 1

/-- The extent of some items. -/
def itemsExtent : List Document → Nat
  | [] => 0
  | item :: rest => item.extent + itemsExtent rest

/-- The extent of some entries. -/
def entriesExtent : List (Document × Document) → Nat
  | [] => 0
  | (key, value) :: rest => key.extent + value.extent + entriesExtent rest

end

end Document

namespace Json

mutual

/-- The document of a value. -/
def document : Json → Document
  | .null => .null
  | .boolean value => .flag value
  | .integer _ => .unreadable
  | .fraction _ _ => .unreadable
  | .string value => .quoted value
  | .list items => .tuple (itemDocuments items)
  | .object fields => .mapping (fieldDocuments fields)

/-- The documents of some values. -/
def itemDocuments : List Json → List Document
  | [] => []
  | item :: rest => item.document :: itemDocuments rest

/-- The entries of some fields. -/
def fieldDocuments : List (String × Json) → List (Document × Document)
  | [] => []
  | (name, value) :: rest => (.quoted name, value.document) :: fieldDocuments rest

end

end Json

end TripleTables
