import TripleTables.Document

/-!
# Readings of documents

A reading takes a value out of a document.  It follows references as it meets
them, so a node may refer to itself as long as the reading comes to an end: a
part that is passed over is never followed.  The references that are followed
are counted, and a document allows only so many for its extent.
-/

namespace TripleTables

/-- A reading knows the nodes that references stand for, and how many references
it may still follow. -/
abbrev Reading := ReaderT (List (Nat × Document)) (StateT Nat Option)

/-- The count of references that may be followed for each unit of extent. -/
def Source.repetitions : Nat := 100

/-- What a reading takes out of a source. -/
def Source.read? {α : Type} (source : Source) (reading : Document → Reading α) : Option α :=
  ((reading source.root).run source.nodes).run' (repetitions * source.root.extent)

namespace Document

/-- The node that a reference stands for, or else the document itself. -/
def follow : Document → Reading Document
  | .reference node => do
      let left ← get
      if left = 0 then
        failure
      set (left - 1)
      (← read).lookup node
  | document => return document

/-- What a view shows of a document, or of the node it refers to. -/
def shown {α : Type} (view : Document → Option α) (document : Document) : Reading α := do
  view (← document.follow)

/-- The text of a scalar. -/
def text : Document → Reading String := shown text?

/-- The truth value of a document. -/
def truth : Document → Reading Bool := shown flag?

/-- The value that is read, or none where the document stands for nothing. -/
def option {α : Type} (reading : Document → Reading α) (document : Document) :
    Reading (Option α) := do
  let node ← document.follow
  if ← node.isNull? then return none else some <$> reading node

/-- The items of a sequence, each of them read. -/
def list {α : Type} (reading : Document → Reading α) (document : Document) :
    Reading (List α) := do
  (← shown items? document).mapM reading

/-- The entries of a mapping from texts to texts. -/
def texts (document : Document) : Reading (List (String × String)) := do
  (← shown entries? document).mapM fun (key, value) => do return (← key.text, ← value.text)

/-! ## Records -/

/-- The entries of a mapping whose keys are names of fields. -/
abbrev Record := List (String × Document)

/-- No name of a field stands twice among the entries. -/
def hasUnique (names : List String) (record : Record) : Bool :=
  names.all (fun name => (record.filter (fun entry => entry.1 == name)).length ≤ 1)

/-- The fields of a mapping.  Other keys than the names given may stand there
too, but no field twice.  The values of a record that are given in order may
stop early. -/
def record (names : List String) (document : Document) : Reading Record := do
  match ← document.follow with
  | .tuple items => if items.length ≤ names.length then return names.zip items else failure
  | node =>
      let record ← (← node.entries?).mapM fun (key, value) => do return (← key.text, value)
      if hasUnique names record then return record else failure

/-- A field that has to be there. -/
def Record.required {α : Type} (record : Record) (name : String)
    (reading : Document → Reading α) : Reading α := do
  reading (← List.lookup name record)

/-- A field with a value for when it is missing. -/
def Record.withDefault {α : Type} (record : Record) (name : String) (fallback : α)
    (reading : Document → Reading α) : Reading α :=
  match List.lookup name record with
  | some value => reading value
  | none => return fallback

/-- A text field that may be missing or stand for nothing. -/
def Record.optionalText (record : Record) (name : String) : Reading (Option String) :=
  Record.withDefault record name none (option text)

end Document

end TripleTables
