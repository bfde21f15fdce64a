/-!
# Qualified names

A name addresses a catalog, a schema, a table or a column by up to four
segments.  An absent segment is a wildcard: a pattern covers a name when every
segment that the pattern carries stands in the name too, so `foo.IntCol` covers
`cat.schema.foo.IntCol` but not the other way round.

A `NameMap` keeps values under distinct names.  `NameMap.find?` looks for the
one entry that a pattern covers and refuses to choose between several.
-/

namespace TripleTables

/-- A qualified name; an absent segment stands for any. -/
structure Name where
  catalog : Option String := none
  schema : Option String := none
  table : Option String := none
  column : Option String := none
deriving DecidableEq, Repr, Ord

namespace Name

/-- The mark between the segments of a name in SQL and in messages. -/
def dot : String := "."

/-- The mark between the segments of a variable that stands for a name: the
middle dot, which SPARQL allows inside a variable. -/
def middleDot : String := "·"

/-- A segment as it is kept: empty text is an absent segment. -/
def segment (text : Option String) : Option String :=
  text.filter (fun s => !s.isEmpty)

/-- The name with the given segments, empty ones absent. -/
def ofSegments (catalog schema table column : Option String) : Name :=
  { catalog := segment catalog
    schema := segment schema
    table := segment table
    column := segment column }

/-- The name all of whose segments are absent; it covers every name. -/
def any : Name := {}

/-- The name of a column written as one to four dotted parts. -/
def ofColumnParts? : List String → Option Name
  | [column] => some (ofSegments none none none column)
  | [table, column] => some (ofSegments none none table column)
  | [schema, table, column] => some (ofSegments none schema table column)
  | [catalog, schema, table, column] => some (ofSegments catalog schema table column)
  | _ => none

/-- The name of a table written as one to three dotted parts. -/
def ofTableParts? : List String → Option Name
  | [table] => some (ofSegments none none table none)
  | [schema, table] => some (ofSegments none schema table none)
  | [catalog, schema, table] => some (ofSegments catalog schema table none)
  | _ => none

/-- The name with another column segment. -/
def withColumn (name : Name) (column : String) : Name :=
  { name with column := segment (some column) }

/-- The name with another schema segment. -/
def withSchema (name : Name) (schema : String) : Name :=
  { name with schema := segment (some schema) }

/-- The name without its column segment. -/
def withoutColumn (name : Name) : Name :=
  { name with column := none }

/-- The four segments, from the widest to the narrowest. -/
def segments (name : Name) : List (Option String) :=
  [name.catalog, name.schema, name.table, name.column]

/-- All segments are absent. -/
def isWild (name : Name) : Bool :=
  name.segments.all Option.isNone

/-- Some segment is absent. -/
def hasWild (name : Name) : Bool :=
  name.segments.any Option.isNone

/-- A pattern's segment admits a name's segment: it is absent or the same. -/
def admits : Option String → Option String → Bool
  | none, _ => true
  | some mine, theirs => theirs == some mine

/-- Every segment that the pattern carries stands in the name too. -/
def covers (pattern name : Name) : Bool :=
  admits pattern.catalog name.catalog && admits pattern.schema name.schema &&
    admits pattern.table name.table && admits pattern.column name.column

/-- The distinct names among `names` that the pattern covers. -/
def covered (pattern : Name) (names : List Name) : List Name :=
  (names.filter pattern.covers).eraseDups

/-- The narrowest segment that is present. -/
def shortName (name : Name) : String :=
  (name.column <|> name.table <|> name.schema <|> name.catalog).getD ""

/-- The segments from the schema on that are present, with a mark between
them. -/
def joinedBy (mark : String) (name : Name) : String :=
  mark.intercalate ([name.schema, name.table, name.column].filterMap id)

/-- The name as SQL writes it, without its catalog. -/
def dotted (name : Name) : String :=
  name.joinedBy dot

/-- The name as the variable for it is spelled, without its catalog. -/
def spelled (name : Name) : String :=
  name.joinedBy middleDot

/-- The name as messages show it: a star for an absent segment, and nothing
for the absent segments at the front. -/
def display (name : Name) : String :=
  if name.isWild then "*"
  else dot.intercalate ((name.segments.dropWhile Option.isNone).map (·.getD "*"))

/-! ## Covering -/

@[simp]
theorem admits_none (theirs : Option String) : admits none theirs = true :=
  rfl

@[simp]
theorem admits_some (mine : String) (theirs : Option String) :
    admits (some mine) theirs = true ↔ theirs = some mine := by
  simp [admits]

/-- A segment admits itself. -/
@[simp]
theorem admits_self (mine : Option String) : admits mine mine = true := by
  cases mine <;> simp

/-- Every name covers itself. -/
@[simp]
theorem covers_self (name : Name) : name.covers name = true := by
  simp [covers]

/-- The name without segments covers every name. -/
@[simp]
theorem any_covers (name : Name) : any.covers name = true := by
  simp [covers, any]

end Name

/-- A pattern covers several entries where one is wanted. -/
structure Ambiguity where
  name : Name
  count : Nat
deriving DecidableEq, Repr

/-- What is said of an ambiguous name. -/
def Ambiguity.message (ambiguity : Ambiguity) : String :=
  s!"Name `{ambiguity.name.display}` is ambiguous: {ambiguity.count} candidates match"

/-- Values under distinct names, in the order in which the names came. -/
structure NameMap (α : Type) where
  entries : List (Name × α)

namespace NameMap

variable {α : Type}

/-- The map without entries. -/
def empty : NameMap α := ⟨[]⟩

/-- The entries with the value under `name` replaced, or a new entry at the
end. -/
def put (name : Name) (value : α) : List (Name × α) → List (Name × α)
  | [] => [(name, value)]
  | entry :: rest =>
      if entry.1 = name then (name, value) :: rest else entry :: put name value rest

/-- The map in which `name` has the given value. -/
def insert (map : NameMap α) (name : Name) (value : α) : NameMap α :=
  ⟨put name value map.entries⟩

/-- The map of a list of entries; of two entries under one name the later
counts. -/
def ofList (entries : List (Name × α)) : NameMap α :=
  entries.foldl (fun map entry => map.insert entry.1 entry.2) empty

/-- The value under exactly this name. -/
def get? (map : NameMap α) (name : Name) : Option α :=
  (map.entries.find? (fun entry => entry.1 = name)).map Prod.snd

/-- The number of entries. -/
def size (map : NameMap α) : Nat :=
  map.entries.length

/-- The one value of a list of values found for a pattern. -/
def only? (pattern : Name) : List α → Except Ambiguity (Option α)
  | [] => .ok none
  | [value] => .ok (some value)
  | values => .error ⟨pattern, values.length⟩

/-- The value of the one entry that the pattern covers.  A complete name is
looked up, a name without segments asks for the only entry, and any other name
is compared with every entry. -/
def find? (map : NameMap α) (pattern : Name) : Except Ambiguity (Option α) :=
  if !pattern.hasWild then .ok (map.get? pattern)
  else if pattern.isWild then only? pattern (map.entries.map Prod.snd)
  else only? pattern ((map.entries.filter (fun entry => pattern.covers entry.1)).map Prod.snd)

end NameMap

end TripleTables
