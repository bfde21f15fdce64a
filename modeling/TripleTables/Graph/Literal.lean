import TripleTables.Text.Blank
import TripleTables.Text.Escape

/-!
# Typed constants

The constants of graph expressions.  A constant keeps the class of the SQL
literal it comes from; a decimal keeps its digits as text, so nothing is
rounded.
-/

namespace TripleTables.Graph

/-- A typed constant. -/
inductive Literal where
  | string (value : String)
  | integer (value : Int)
  | decimal (digits : String)
  | boolean (value : Bool)
  | date (value : String)
  | time (value : String)
  | timestamp (value : String)
deriving DecidableEq, Repr

namespace Literal

/-- The namespace of the datatypes that tag dates and times. -/
def datatypeNamespace : String := "http://www.w3.org/2001/XMLSchema#"

/-- The local name of the datatype that a date or a time is tagged with. -/
def datatype? : Literal → Option String
  | .date _ => some "date"
  | .time _ => some "time"
  | .timestamp _ => some "dateTime"
  | _ => none

/-- A text with its first space replaced by the letter `T`. -/
def joinDateTime : List Char → List Char
  | [] => []
  | ' ' :: rest => 'T' :: rest
  | c :: rest => c :: joinDateTime rest

/-- The lexical form of a timestamp: SQL puts a space between the date and the
time, the datatype of SPARQL a `T`. -/
def dateTime (value : List Char) : List Char :=
  joinDateTime (Text.trim value)

/-- A quoted value tagged with a datatype. -/
def tagged (value : List Char) (datatype : String) : List Char :=
  Text.quote value ++ "^^<".toList ++ datatypeNamespace.toList ++ datatype.toList ++ ['>']

/-- The constant as SPARQL writes it, as characters. -/
def chars : Literal → List Char
  | .string value => Text.quote value.toList
  | .integer value => (toString value).toList
  | .decimal digits => digits.toList
  | .boolean value => (toString value).toList
  | .date value => tagged value.toList "date"
  | .time value => tagged value.toList "time"
  | .timestamp value => tagged (dateTime value.toList) "dateTime"

/-- The constant as SPARQL writes it. -/
def text (literal : Literal) : String :=
  String.ofList literal.chars

end Literal

end TripleTables.Graph
