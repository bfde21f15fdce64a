import TripleTables.Name

/-!
# Variables, terms and triples

The parts of a graph pattern.  A variable is kept without its question mark.
Any text becomes a variable by replacing the characters that a SPARQL variable
may not hold; the variable of a qualified name is spelled by its segments from
the schema on.
-/

namespace TripleTables.Graph

/-- A variable of a graph query, without the question mark. -/
structure Variable where
  name : String
deriving DecidableEq, Repr

namespace Variable

/-- The middle dot, which a variable may hold but not start with. -/
def middleDot : Char := '·'

/-- The characters a variable may hold. -/
def isNameChar (c : Char) : Bool :=
  c.isAlphanum || c == '_' || c == middleDot

/-- A character as a variable holds it: an underscore stands for one that is
not allowed. -/
def cleanChar (c : Char) : Char :=
  if isNameChar c then c else '_'

/-- The characters of the variable for a text: the marks `?` and `$` at its
start are dropped, characters that are not allowed are replaced, and an
underscore is put in front where nothing or a middle dot would come first. -/
def clean (text : List Char) : List Char :=
  match (text.dropWhile (fun c => c == '?' || c == '$')).map cleanChar with
  | [] => ['_']
  | first :: rest => if first == middleDot then '_' :: first :: rest else first :: rest

/-- The variable for a text. -/
def ofText (text : String) : Variable :=
  ⟨String.ofList (clean text.toList)⟩

/-- The variable for a qualified name. -/
def ofName (name : Name) : Variable :=
  ofText name.spelled

/-- The variable as SPARQL writes it. -/
def text (v : Variable) : String :=
  "?" ++ v.name

end Variable

/-- The IRI that the keyword `a` of a triple stands for. -/
def typeIri : String := "http://www.w3.org/1999/02/22-rdf-syntax-ns#type"

/-- What may stand at a place of a triple. -/
inductive Term where
  | variable (v : Variable)
  | iri (reference : String)
  | prefixedName (name : String)
  /-- A literal as SPARQL writes it, with its quotes and suffix. -/
  | literal (lexical : String)
  | blankNode (label : String)
deriving DecidableEq, Repr

namespace Term

/-- The term as SPARQL writes it. -/
def text : Term → String
  | .variable v => v.text
  | .iri reference => "<" ++ reference ++ ">"
  | .prefixedName name => name
  | .literal lexical => lexical
  | .blankNode label => "_:" ++ label

/-- The variable that the term is, if it is one. -/
def asVariable? : Term → Option Variable
  | .variable v => some v
  | _ => none

end Term

/-- A triple of a graph pattern. -/
structure Triple where
  subject : Term
  predicate : Term
  object : Term
deriving DecidableEq, Repr

namespace Triple

/-- The variables of the triple, from the subject to the object. -/
def vars (triple : Triple) : List Variable :=
  [triple.subject, triple.predicate, triple.object].filterMap Term.asVariable?

/-- The triple as SPARQL writes it. -/
def text (triple : Triple) : String :=
  triple.subject.text ++ " " ++ triple.predicate.text ++ " " ++ triple.object.text ++ " ."

end Triple

end TripleTables.Graph
