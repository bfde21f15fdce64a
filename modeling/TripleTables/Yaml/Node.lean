import TripleTables.Yaml.Token

/-!
# Documents of YAML

The tokens of a text make one document.  The tokens themselves are the clock of
the recursion: every collection and every item takes at least one of them.
-/

namespace TripleTables.Yaml

/-- The tokens that are left, the numbers that names stand for so far, and the
named nodes, the latest first. -/
structure Stream where
  tokens : List Token
  names : List (List Char × Nat) := []
  nodes : List (Nat × Document) := []

namespace Stream

/-- The stream after its first token. -/
def tail (stream : Stream) : Stream :=
  { stream with tokens := stream.tokens.tail }

/-- The stream goes on with one of some tokens. -/
def startsWith (stream : Stream) (tokens : List Token) : Bool :=
  match stream.tokens with
  | [] => false
  | token :: _ => tokens.contains token

/-- The stream with a name for a node that is still to be read.  The number of
the node is the count of different names before it.  So once a name has been
given again, a later node may take over a number with all its references. -/
def declare (stream : Stream) : Option (List Char) → Stream
  | some name =>
      let number := stream.names.length
      { stream with
        names := (name, number) :: stream.names.filter (fun entry => entry.1 != name)
        nodes := (number, .unreadable) :: stream.nodes }
  | none => stream

/-- The stream after a node has been read, if it is the latest named one of
`start`. -/
def define (stream start : Stream) (document : Document) : Option (List Char) → Stream
  | some _ =>
      let later := stream.nodes.length - start.nodes.length
      { stream with
        nodes := stream.nodes.modify later fun (number, _) => (number, document) }
  | none => stream

end Stream

/-- What the handles of tags stand for. -/
abbrev Handles := List (List Char × Tag)

/-- The handles that need no directive. -/
def standardHandles : Handles :=
  [(['!'], .ofChars ['!']), (['!', '!'], .ofChars "tag:yaml.org,2002:".toList)]

/-- The whole tag, if the handle is known. -/
def WrittenTag.resolve? (handles : Handles) (tag : WrittenTag) : Option Tag :=
  match tag.handle with
  | [] => some tag.suffix
  | handle => do return (← handles.lookup handle) ++ tag.suffix

/-! ## Nodes -/

/-- What may stand before a node. -/
structure Properties where
  anchor : Option (List Char) := none
  tag : Option WrittenTag := none

/-- There are properties. -/
def Properties.isSome (properties : Properties) : Bool :=
  properties.anchor.isSome || properties.tag.isSome

/-- Reads the properties of a node, in any order. -/
def readProperties : List Token → Properties × List Token
  | .anchor name :: .tag tag :: rest => (⟨some name, some tag⟩, rest)
  | .tag tag :: .anchor name :: rest => (⟨some name, some tag⟩, rest)
  | .anchor name :: rest => (⟨some name, none⟩, rest)
  | .tag tag :: rest => (⟨none, some tag⟩, rest)
  | tokens => ({}, tokens)

/-- Where a node stands. -/
inductive Position where
  /-- In a sequence that is told by columns, or in a document. -/
  | block
  /-- In a mapping that is told by columns, where the items of a sequence need
  no column of their own. -/
  | entry
  /-- Between brackets. -/
  | flow
deriving DecidableEq, Repr

/-- Readers for the parts of collections, each after what opens it. -/
structure Readers where
  /-- The items of a sequence; a loose one is closed by what follows it. -/
  items : (loose : Bool) → Stream → Option (List Document × Stream)
  entries : Stream → Option (List (Document × Document) × Stream)
  flowItems : (first : Bool) → Stream → Option (List Document × Stream)
  flowEntries : (first : Bool) → Stream → Option (List (Document × Document) × Stream)

/-- Reads a sequence. -/
def sequence (read : Stream → Option (List Document × Stream)) (stream : Stream) :
    Option (Document × Stream) :=
  (read stream).map fun (items, next) => (.sequence items, next)

/-- Reads a mapping. -/
def mapping (read : Stream → Option (List (Document × Document) × Stream)) (stream : Stream) :
    Option (Document × Stream) :=
  (read stream).map fun (entries, next) => (.mapping entries, next)

/-- Reads a node after its properties.  A node with properties may be empty. -/
def content (readers : Readers) (position : Position) (bare : Bool) (tag : Option Tag)
    (stream : Stream) : Option (Document × Stream) :=
  let empty := if bare then none else some (.scalar ⟨.plain, "", tag⟩, stream)
  match stream.tokens with
  | .scalar style text :: _ => some (.scalar ⟨style, String.ofList text, tag⟩, stream.tail)
  | .flowSequence :: _ => sequence (readers.flowItems true) stream.tail
  | .flowMapping :: _ => mapping (readers.flowEntries true) stream.tail
  | .item :: _ => if position = .entry then sequence (readers.items true) stream else empty
  | .blockSequence :: _ =>
      if position = .flow then empty else sequence (readers.items false) stream.tail
  | .blockMapping :: _ => if position = .flow then empty else mapping readers.entries stream.tail
  | _ => empty

/-- Reads a node. -/
def node (handles : Handles) (readers : Readers) (position : Position) (stream : Stream) :
    Option (Document × Stream) :=
  match stream.tokens with
  | .reference name :: _ => do return (.reference (← stream.names.lookup name), stream.tail)
  | tokens => do
      let (properties, rest) := readProperties tokens
      let tag ← properties.tag.mapM (WrittenTag.resolve? handles)
      let start := { stream with tokens := rest }.declare properties.anchor
      let (document, next) ← content readers position (!properties.isSome) tag start
      return (document, next.define start document properties.anchor)

/-- Reads a node unless one of some tokens follows, before which it is empty. -/
def nodeBefore (handles : Handles) (readers : Readers) (position : Position)
    (ends : List Token) (stream : Stream) : Option (Document × Stream) :=
  if stream.startsWith ends then some (.void, stream) else node handles readers position stream

/-- Reads the value of an entry, if there is one. -/
def value (handles : Handles) (readers : Readers) (position : Position) (ends : List Token)
    (stream : Stream) : Option (Document × Stream) :=
  if stream.startsWith [.value] then nodeBefore handles readers position ends stream.tail
  else some (.void, stream)

/-! ## Collections -/

/-- The tokens that end a node in a mapping that is told by columns. -/
def entryEnds : List Token := [.key, .value, .blockEnd]

/-- The tokens that end an item. -/
def itemEnds (loose : Bool) : List Token :=
  if loose then .item :: entryEnds else [.item, .blockEnd]

/-- The stream after a comma, which stands before every part but the first. -/
def afterComma (first : Bool) (stream : Stream) : Option Stream :=
  if first then some stream else if stream.startsWith [.comma] then some stream.tail else none

/-- Reads the key of a pair that stands for an item.  With nothing in it, it
takes the token after it along. -/
def pairKey (handles : Handles) (readers : Readers) (stream : Stream) :
    Option (Document × Stream) :=
  if stream.startsWith [.value, .comma, .flowSequenceEnd] then some (.void, stream.tail)
  else node handles readers .flow stream

/-- Reads an item between brackets.  A pair is a mapping with one entry. -/
def flowItem (handles : Handles) (readers : Readers) (stream : Stream) :
    Option (Document × Stream) :=
  if stream.startsWith [.key] then do
    let (key, stream) ← pairKey handles readers stream.tail
    let (value, stream) ← value handles readers .flow [.comma, .flowSequenceEnd] stream
    return (.mapping [(key, value)], stream)
  else node handles readers .flow stream

/-- Reads an entry between brackets.  The value may be missing. -/
def flowEntry (handles : Handles) (readers : Readers) (stream : Stream) :
    Option ((Document × Document) × Stream) :=
  if stream.startsWith [.key] then do
    let (key, stream) ←
      nodeBefore handles readers .flow [.value, .comma, .flowMappingEnd] stream.tail
    let (value, stream) ← value handles readers .flow [.comma, .flowMappingEnd] stream
    return ((key, value), stream)
  else do
    let (key, stream) ← node handles readers .flow stream
    return ((key, .void), stream)

mutual

/-- Reads the items of a sequence that is told by columns, with a clock. -/
def readItems (handles : Handles) :
    (clock : List Token) → (loose : Bool) → Stream → Option (List Document × Stream)
  | [], _, _ => none
  | _ :: clock, loose, stream =>
      if stream.startsWith [.item] then do
        let readers : Readers :=
          ⟨readItems handles clock, readEntries handles clock, readFlowItems handles clock,
            readFlowEntries handles clock⟩
        let (item, next) ← nodeBefore handles readers .block (itemEnds loose) stream.tail
        let (items, next) ← readItems handles clock loose next
        return (item :: items, next)
      else if loose then some ([], stream)
      else if stream.startsWith [.blockEnd] then some ([], stream.tail)
      else none

/-- Reads the entries of a mapping that is told by columns, with a clock. -/
def readEntries (handles : Handles) :
    (clock : List Token) → Stream → Option (List (Document × Document) × Stream)
  | [], _ => none
  | _ :: clock, stream =>
      if stream.startsWith [.key] then do
        let readers : Readers :=
          ⟨readItems handles clock, readEntries handles clock, readFlowItems handles clock,
            readFlowEntries handles clock⟩
        let (key, next) ← nodeBefore handles readers .entry entryEnds stream.tail
        let (value, next) ← value handles readers .entry entryEnds next
        let (entries, next) ← readEntries handles clock next
        return ((key, value) :: entries, next)
      else if stream.startsWith [.blockEnd] then some ([], stream.tail)
      else none

/-- Reads the items of a sequence in brackets, with a clock. -/
def readFlowItems (handles : Handles) :
    (clock : List Token) → (first : Bool) → Stream → Option (List Document × Stream)
  | [], _, _ => none
  | _ :: clock, first, stream => do
      if stream.startsWith [.flowSequenceEnd] then return ([], stream.tail)
      let stream ← afterComma first stream
      if stream.startsWith [.flowSequenceEnd] then return ([], stream.tail)
      let readers : Readers :=
        ⟨readItems handles clock, readEntries handles clock, readFlowItems handles clock,
          readFlowEntries handles clock⟩
      let (item, next) ← flowItem handles readers stream
      let (items, next) ← readFlowItems handles clock false next
      return (item :: items, next)

/-- Reads the entries of a mapping in brackets, with a clock. -/
def readFlowEntries (handles : Handles) :
    (clock : List Token) → (first : Bool) → Stream →
      Option (List (Document × Document) × Stream)
  | [], _, _ => none
  | _ :: clock, first, stream => do
      if stream.startsWith [.flowMappingEnd] then return ([], stream.tail)
      let stream ← afterComma first stream
      if stream.startsWith [.flowMappingEnd] then return ([], stream.tail)
      let readers : Readers :=
        ⟨readItems handles clock, readEntries handles clock, readFlowItems handles clock,
          readFlowEntries handles clock⟩
      let (entry, next) ← flowEntry handles readers stream
      let (entries, next) ← readFlowEntries handles clock false next
      return (entry :: entries, next)

end

/-! ## Documents -/

/-- The directives at the start of some tokens, and the other tokens. -/
def splitDirectives : List Token → List Directive × List Token
  | .directive directive :: rest =>
      let (directives, rest) := splitDirectives rest
      (directive :: directives, rest)
  | tokens => ([], tokens)

/-- The version that a directive states. -/
def Directive.version? : Directive → Option (Nat × Nat)
  | .version major minor => some (major, minor)
  | .handle _ _ => none

/-- What a directive says about a handle. -/
def Directive.handle? : Directive → Option (List Char × Tag)
  | .version _ _ => none
  | .handle short start => some (short, start)

/-- The versions that can be read. -/
def versions : List (Nat × Nat) := [(1, 1), (1, 2)]

/-- The handles of a document with some directives.  There is at most one
version among them, and no handle twice. -/
def handles? (directives : List Directive) : Option Handles :=
  let stated := directives.filterMap Directive.version?
  let handles := directives.filterMap Directive.handle?
  if stated.length ≤ 1 ∧ stated.all versions.contains ∧ (handles.map Prod.fst).Nodup then
    some (handles ++ standardHandles)
  else none

/-- The tokens that may stand after the mark of a document without a node. -/
def endsDocument : List Token → Bool
  | [] => true
  | .directive _ :: _ => true
  | .documentStart :: _ => true
  | .documentEnd :: _ => true
  | _ => false

/-- Reads the node of a document. -/
def rootNode (handles : Handles) (tokens : List Token) : Option (Document × Stream) :=
  let readers : Readers :=
    ⟨readItems handles tokens, readEntries handles tokens, readFlowItems handles tokens,
      readFlowEntries handles tokens⟩
  node handles readers .block { tokens }

/-- Reads the document at the start of some tokens.  Without its mark there has
to be a node. -/
def document (tokens : List Token) : Option (Source × List Token) := do
  let (directives, rest) := splitDirectives tokens
  match rest with
  | .documentStart :: rest =>
      let handles ← handles? directives
      if endsDocument rest then return (⟨.void, []⟩, rest)
      let (root, next) ← rootNode handles rest
      return (⟨root, next.nodes⟩, next.tokens)
  | _ =>
      if !directives.isEmpty then
        none
      let (root, next) ← rootNode standardHandles rest
      return (⟨root, next.nodes⟩, next.tokens)

/-- The document of some tokens, of which there is one at most. -/
def ofTokens? : List Token → Option Source
  | [] => some ⟨.void, []⟩
  | tokens => do
      let (source, rest) ← document tokens
      if rest.all (· = .documentEnd) then some source else none

/-- The document of a text. -/
def read (text : String) : Option Source := do
  let chars := text.toList
  if !chars.all isPrintable then
    none
  ofTokens? (← tokens? (unifyBreaks chars))

end TripleTables.Yaml
