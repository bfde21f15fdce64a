import TripleTables.Graph.Term
import TripleTables.Text.Blank
import TripleTables.Text.Numeral

/-!
# Triple templates

A template is one triple in SPARQL syntax with two holes, one for the subject
of a table row and one for a value:

* a column's template is filled with the row's subject and the column's
  variable;
* a table's template is filled with the row's subject and the table's IRI.

A template whose first character that is not blank is `#` is a comment and
gives no triple.
-/

namespace TripleTables

open TripleTables.Graph

/-- What owns a template, for messages. -/
inductive TemplateOwner where
  | table (name : Name)
  | column (name : Name)
deriving DecidableEq, Repr

/-- The owner in words. -/
def TemplateOwner.text : TemplateOwner → String
  | .table name => "table " ++ name.dotted
  | .column name => "column " ++ name.dotted

/-- Why a template cannot be used. -/
inductive TemplateFault where
  | unterminatedLiteral
  | unterminatedIri
  | componentCount (found : Nat)
  | badIri (token : String)
  | unrecognisedTerm (token : String)
  | missingObject
  | literalSubject
  | badPredicate
  | absentTemplate
  | unusedObject
  | commentColumn (name : Name)
deriving DecidableEq, Repr

/-- The fault in words. -/
def TemplateFault.text : TemplateFault → String
  | .unterminatedLiteral => "unterminated literal"
  | .unterminatedIri => "unterminated IRI"
  | .componentCount found =>
      "does not parse into 3 components (found " ++ toString found ++ ")"
  | .badIri token => "bad IRI `" ++ token ++ "`"
  | .unrecognisedTerm token => "unrecognised term `" ++ token ++ "`"
  | .missingObject => "uses \x7bobject\x7d but no object value is available"
  | .literalSubject => "subject position holds a literal"
  | .badPredicate => "predicate position must be an IRI or variable"
  | .absentTemplate => "column has no pattern template"
  | .unusedObject => "column template does not use \x7bobject\x7d"
  | .commentColumn name => "column " ++ name.dotted ++ " has a comment template"

/-- A template that cannot be used. -/
structure TemplateError where
  /-- The text of the template. -/
  template : String
  fault : TemplateFault
  owner : Option TemplateOwner := none
deriving DecidableEq, Repr

namespace TemplateError

/-- The error with the owner of the template named. -/
def ownedBy (error : TemplateError) (owner : TemplateOwner) : TemplateError :=
  { error with owner := some owner }

/-- The fault, and where the template stands if that is known. -/
def reason (error : TemplateError) : String :=
  match error.owner with
  | some owner => error.fault.text ++ " (in " ++ owner.text ++ ")"
  | none => error.fault.text

/-- What is said of the template. -/
def message (error : TemplateError) : String :=
  "Malformed pattern template `" ++ error.template ++ "`: " ++ error.reason

end TemplateError

/-- One place of a template. -/
inductive Slot where
  /-- The hole for the subject of a row. -/
  | subject
  /-- The hole for a value. -/
  | object
  /-- A term that stands as it is. -/
  | fixed (term : Term)
deriving DecidableEq, Repr

/-- What a template says. -/
inductive TemplateBody where
  | comment
  | triple (first second third : Slot)
deriving DecidableEq, Repr

/-- A template that has been read. -/
structure Template where
  /-- The text it was read from. -/
  source : String
  body : TemplateBody
deriving DecidableEq, Repr

namespace Template

/-! ## Splitting into tokens -/

/-- What the tokenizer stands in. -/
inductive Mode where
  | plain
  | quoted (mark : Char)
  /-- Directly after a backslash inside quotes. -/
  | escaped (mark : Char)
  | iri
deriving DecidableEq, Repr

/-- A token that has been collected in reverse, if it holds anything. -/
def flush (current : List Char) : List (List Char) :=
  if current.isEmpty then [] else [current.reverse]

/-- Splits a text at blanks that stand neither between quotes nor between
angle brackets.  `current` is the token so far, in reverse. -/
def splitFrom : Mode → List Char → List Char → Except TemplateFault (List (List Char))
  | .plain, current, [] => .ok (flush current)
  | .quoted _, _, [] => .error .unterminatedLiteral
  | .escaped _, _, [] => .error .unterminatedLiteral
  | .iri, _, [] => .error .unterminatedIri
  | .plain, current, c :: rest =>
      if Text.isBlank c then (flush current ++ ·) <$> splitFrom .plain [] rest
      else if c = '<' then splitFrom .iri (c :: current) rest
      else if c = '"' ∨ c = '\'' then splitFrom (.quoted c) (c :: current) rest
      else splitFrom .plain (c :: current) rest
  | .quoted mark, current, c :: rest =>
      if c = '\\' then splitFrom (.escaped mark) (c :: current) rest
      else if c = mark then splitFrom .plain (c :: current) rest
      else splitFrom (.quoted mark) (c :: current) rest
  | .escaped mark, current, c :: rest => splitFrom (.quoted mark) (c :: current) rest
  | .iri, current, c :: rest =>
      if c = '>' then splitFrom .plain (c :: current) rest
      else splitFrom .iri (c :: current) rest

/-- The tokens of a template. -/
def tokens (text : List Char) : Except TemplateFault (List (List Char)) :=
  splitFrom .plain [] text

/-- A last token without the full stop glued to it.  A number keeps its point,
and so does a token that ends in two. -/
def unglue (token : List Char) : List Char :=
  if 1 < token.length ∧ token.getLast? = some '.' ∧ Text.isNumeral token = false ∧
      token.dropLast.getLast? ≠ some '.' then token.dropLast
  else token

/-- The tokens without the full stop that ends a triple. -/
def dropStop : List (List Char) → List (List Char)
  | [] => []
  | [last] => if last = ['.'] then [] else [unglue last]
  | first :: rest => first :: dropStop rest

/-! ## Reading terms -/

/-- The token for the subject hole. -/
def subjectHole : String := "\x7bsubject\x7d"

/-- The token for the value hole. -/
def objectHole : String := "\x7bobject\x7d"

/-- The term that a token other than a hole or a keyword stands for. -/
def readTerm (token : List Char) : Except TemplateFault Term :=
  match token with
  | '<' :: inner =>
      if inner.getLast? = some '>' then .ok (.iri (String.ofList inner.dropLast))
      else .error (.badIri (String.ofList token))
  | '"' :: _ => .ok (.literal (String.ofList token))
  | '\'' :: _ => .ok (.literal (String.ofList token))
  | '?' :: name => .ok (.variable (Variable.ofText (String.ofList name)))
  | '$' :: name => .ok (.variable (Variable.ofText (String.ofList name)))
  | '_' :: ':' :: label => .ok (.blankNode (String.ofList label))
  | _ =>
      if Text.isNumeral token then .ok (.literal (String.ofList token))
      else if token.contains ':' && !token.contains '\x7b' then
        .ok (.prefixedName (String.ofList token))
      else .error (.unrecognisedTerm (String.ofList token))

/-- The slot that a token stands for. -/
def readSlot (token : List Char) : Except TemplateFault Slot :=
  if token = subjectHole.toList then .ok .subject
  else if token = objectHole.toList then .ok .object
  else if token = ['a'] then .ok (.fixed (.iri typeIri))
  else if token = "true".toList ∨ token = "false".toList then
    .ok (.fixed (.literal (String.ofList token)))
  else .fixed <$> readTerm token

/-- The body that three tokens stand for. -/
def readBody : List (List Char) → Except TemplateFault TemplateBody
  | [first, second, third] => do
      let first ← readSlot first
      let second ← readSlot second
      let third ← readSlot third
      return .triple first second third
  | other => .error (.componentCount other.length)

/-- Reads a template.  A quote or bracket that stays open is reported with the
trimmed text, every other fault with the text as it was given. -/
def read (source : String) : Except TemplateError Template :=
  let trimmed := Text.trim source.toList
  if trimmed.head? = some '#' then .ok ⟨source, .comment⟩
  else
    match tokens trimmed with
    | .error fault => .error { template := String.ofList trimmed, fault }
    | .ok found =>
        match readBody (dropStop found) with
        | .error fault => .error { template := source, fault }
        | .ok body => .ok ⟨source, body⟩

/-- The template is a comment. -/
def isComment (template : Template) : Bool :=
  match template.body with
  | .comment => true
  | .triple .. => false

/-- The template has a hole for a value. -/
def usesObject (template : Template) : Bool :=
  match template.body with
  | .comment => false
  | .triple s p o => s == .object || p == .object || o == .object

/-! ## Filling -/

/-- The term at a slot once the holes are filled. -/
def fillSlot (subject : Variable) (object : Option Term) : Slot → Except TemplateFault Term
  | .subject => .ok (.variable subject)
  | .object =>
      match object with
      | some value => .ok value
      | none => .error .missingObject
  | .fixed term => .ok term

/-- A triple has no literal as its subject, and its predicate is an IRI or a
variable. -/
def checkTriple (triple : Triple) : Except TemplateFault Triple :=
  match triple.subject, triple.predicate with
  | .literal _, _ => .error .literalSubject
  | _, .literal _ => .error .badPredicate
  | _, .blankNode _ => .error .badPredicate
  | _, _ => .ok triple

/-- The triple of a template body, none for a comment. -/
def fillBody (subject : Variable) (object : Option Term) :
    TemplateBody → Except TemplateFault (Option Triple)
  | .comment => .ok none
  | .triple s p o => do
      let s ← fillSlot subject object s
      let p ← fillSlot subject object p
      let o ← fillSlot subject object o
      some <$> checkTriple ⟨s, p, o⟩

/-- The triple of a template, none for a comment. -/
def instantiate (template : Template) (subject : Variable) (object : Option Term) :
    Except TemplateError (Option Triple) :=
  (fillBody subject object template.body).mapError fun fault =>
    { template := template.source, fault }

end Template

end TripleTables
