import TripleTables.Graph.Expr

/-!
# LIKE patterns

A pattern is read from left to right.  A backslash directly before `%` or `_`
takes away its special meaning and is an ordinary character elsewhere; `%`
stands for one or more characters and `_` for exactly one.

A pattern without wildcards asks for equality with its text.  Any other
pattern becomes an anchored regular expression in the dialect of SPARQL's
`REGEX`, in which every ordinary character stands for itself.
-/

namespace TripleTables

/-- One item of a LIKE pattern. -/
inductive LikeItem where
  /-- An ordinary character, which stands for itself. -/
  | char (c : Char)
  /-- One or more characters. -/
  | many
  /-- Exactly one character. -/
  | one
deriving DecidableEq, Repr

namespace LikeItem

/-- The items of a pattern. -/
def ofChars : List Char → List LikeItem
  | [] => []
  | '\\' :: '%' :: rest => .char '%' :: ofChars rest
  | '\\' :: '_' :: rest => .char '_' :: ofChars rest
  | '%' :: rest => .many :: ofChars rest
  | '_' :: rest => .one :: ofChars rest
  | c :: rest => .char c :: ofChars rest

/-- The item is a wildcard. -/
def isWildcard : LikeItem → Bool
  | .char _ => false
  | .many => true
  | .one => true

/-- The characters with a meaning of their own in a regular expression. -/
def metaCharacters : List Char :=
  ['\\', '.', '?', '*', '+', '(', ')', '\x7b', '\x7d', '[', ']', '^', '$', '|', '-']

/-- A character as a regular expression writes it. -/
def quoteChar (c : Char) : List Char :=
  if metaCharacters.contains c then ['\\', c] else [c]

/-- The item as a regular expression writes it. -/
def regexChars : LikeItem → List Char
  | .char c => quoteChar c
  | .many => "(.+)".toList
  | .one => ['.']

/-- The character that an ordinary item stands for. -/
def char? : LikeItem → Option Char
  | .char c => some c
  | .many => none
  | .one => none

end LikeItem

/-- What a LIKE pattern asks for. -/
inductive LikePattern where
  /-- A match with an anchored regular expression. -/
  | regex (pattern : String)
  /-- Equality with a text. -/
  | exact (text : String)
deriving DecidableEq, Repr

namespace LikePattern

/-- What the pattern with the given items asks for. -/
def ofItems (items : List LikeItem) : LikePattern :=
  if items.any LikeItem.isWildcard then
    .regex (String.ofList ('^' :: items.flatMap LikeItem.regexChars ++ ['$']))
  else .exact (String.ofList (items.filterMap LikeItem.char?))

/-- What a pattern asks for. -/
def ofText (pattern : String) : LikePattern :=
  ofItems (LikeItem.ofChars pattern.toList)

/-- The condition that a subject meets the pattern. -/
def filter (subject : Graph.Expr) : LikePattern → Graph.Expr
  | .exact text => .binary .equals subject (.string text)
  | .regex pattern => .regex subject pattern none

end LikePattern

/-- The condition `subject LIKE pattern`; the pattern has to be a string
constant. -/
def likeFilter? (subject : Graph.Expr) : Graph.Expr → Option Graph.Expr
  | .constant (.string pattern) => some ((LikePattern.ofText pattern).filter subject)
  | _ => none

end TripleTables
