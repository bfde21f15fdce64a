import TripleTables.Sql.Reader
import TripleTables.Sql.Syntax

/-!
# Lexemes of SQL

Keywords, identifiers, quoted texts and numbers.  An error of these readers is
the text that was left where it arose.  A token takes the blanks before and
after it; blanks are the space, the tab and the two line ends.
-/

namespace TripleTables.Sql

/-- A place in a text: what is left from there on. -/
abbrev Position := List Char

/-- Readers whose errors are places. -/
abbrev Lexer := Reader Position

namespace Lexer

variable {α : Type}

/-! ## Characters -/

/-- The characters that may stand between tokens. -/
def isSpace (c : Char) : Bool :=
  c == ' ' || c == '\t' || c == '\r' || c == '\n'

/-- The characters that a word may start with. -/
def isWordStart (c : Char) : Bool :=
  c.isAlpha || c == '_'

/-- The characters of a word. -/
def isWordChar (c : Char) : Bool :=
  c.isAlphanum || c == '_' || c == '$'

/-- Misses here. -/
def fail : Lexer α :=
  fun s => .miss s

/-- Skips blanks. -/
def spaces : Lexer Unit :=
  fun s => .ok () (s.dropWhile isSpace)

/-- Reads with the blanks before and after. -/
def token (p : Lexer α) : Lexer α := do
  spaces
  let value ← p
  spaces
  return value

/-- Reads one character that meets a condition. -/
def satisfy (condition : Char → Bool) : Lexer Char
  | [] => .miss []
  | c :: rest => if condition c then .ok c rest else .miss (c :: rest)

/-- Reads one given character. -/
def char (expected : Char) : Lexer Char :=
  satisfy (· == expected)

/-- The rest of a text after a given beginning. -/
def afterText? : List Char → List Char → Option (List Char)
  | [], s => some s
  | _ :: _, [] => none
  | expected :: more, c :: rest => if c == expected then afterText? more rest else none

/-- Reads a given text. -/
def text (expected : String) : Lexer Unit :=
  fun s =>
    match afterText? expected.toList s with
    | some rest => .ok () rest
    | none => .miss s

/-- Reads a given character as a token. -/
def symbol (expected : Char) : Lexer Unit := do
  let _ ← token (char expected)

/-! ## Words -/

/-- The sign for the unit kelvin.  It is the one character beside the ASCII letters
whose lower case is an ASCII letter. -/
def kelvinSign : Char := '\u212a'

/-- The lower case of a character, as far as letters of keywords are concerned. -/
def lowered (c : Char) : Char :=
  if c = kelvinSign then 'k' else c.toLower

/-- A text starts with a word in any letter case, or is a beginning of it. -/
def startsAlike : List Char → List Char → Bool
  | [], _ => true
  | _ :: _, [] => true
  | expected :: more, c :: rest => lowered c == lowered expected && startsAlike more rest

/-- The number of bytes of a text. -/
def byteCount : List Char → Nat
  | [] => 0
  | c :: rest => c.utf8Size + byteCount rest

/-- The rest of a text after a number of bytes, if a character ends there. -/
def afterBytes? : Nat → List Char → Option (List Char)
  | 0, s => some s
  | _ + 1, [] => none
  | n + 1, c :: rest => if c.utf8Size ≤ n + 1 then afterBytes? (n + 1 - c.utf8Size) rest else none

/-- Reads a word in any letter case.  The text is compared with the word character by
character but cut after as many bytes as the word has, and these end inside a
character where the text holds the kelvin sign for a letter of the word. -/
def wordText (word : String) : Lexer Unit :=
  fun s =>
    bif startsAlike word.toList s && decide (byteCount word.toList ≤ byteCount s) then
      match afterBytes? (byteCount word.toList) s with
      | some rest => .ok () rest
      | none => .torn s
    else .miss s

/-- No character of a word comes next. -/
def wordEnd : Lexer Unit :=
  fun s => if s.head?.any isWordChar then .miss s else .ok () s

/-- Reads a keyword in any letter case that is not the beginning of a longer
word. -/
def keyword (word : String) : Lexer Unit :=
  token do
    wordText word
    wordEnd

/-- The words that are no identifiers unless quoted. -/
def reservedWords : List String :=
  [ "ALL", "AND", "ANY", "AS", "ASC", "BETWEEN", "BY", "CASE", "CROSS", "DESC", "DISTINCT"
  , "ELSE", "END", "EXCEPT", "EXISTS", "FALSE", "FROM", "FULL", "GROUP", "HAVING", "IN"
  , "INNER", "INTERSECT", "IS", "JOIN", "LEFT", "LIKE", "LIMIT", "MINUS", "NOT", "NULL"
  , "OFFSET", "ON", "OR", "ORDER", "OUTER", "RIGHT", "SELECT", "SOME", "THEN", "TRUE"
  , "UNION", "WHEN", "WHERE" ]

/-- Two words are the same but for the case of ASCII letters. -/
def sameWord (left right : List Char) : Bool :=
  left.map Char.toUpper == right.map Char.toUpper

/-- The word is reserved. -/
def isReserved (word : List Char) : Bool :=
  reservedWords.any (fun reserved => sameWord reserved.toList word)

/-- Reads a word that meets a condition. -/
def word (condition : List Char → Bool) : Lexer String :=
  fun s =>
    match s with
    | [] => .miss []
    | c :: rest =>
        let found := c :: rest.takeWhile isWordChar
        if isWordStart c && condition found then
          .ok (String.ofList found) (rest.dropWhile isWordChar)
        else .miss s

/-! ## Quoted texts -/

/-- The text up to the closing quote, and what follows the quote.  A doubled
quote stands for itself. -/
def unquote (quote : Char) : List Char → Option (List Char × List Char)
  | [] => none
  | [c] => if c = quote then some ([], []) else none
  | c :: d :: rest =>
      if c = quote then
        if d = quote then (unquote quote rest).map (fun (value, left) => (quote :: value, left))
        else some ([], d :: rest)
      else (unquote quote (d :: rest)).map (fun (value, left) => (c :: value, left))

/-- Reads a text between quotes. -/
def quoted (quote : Char) : Lexer String :=
  fun s =>
    match s with
    | [] => .miss []
    | c :: rest =>
        if c = quote then
          match unquote quote rest with
          | some (value, left) => .ok (String.ofList value) left
          | none => .miss s
        else .miss s

/-- Reads a string between single quotes. -/
def string : Lexer String :=
  token (quoted '\'')

/-! ## Identifiers -/

/-- Reads an identifier: a word that is not reserved, or a text between double
quotes or backquotes. -/
def identifier : Lexer String :=
  token (Reader.firstOf (word (fun found => !isReserved found)) [quoted '"', quoted '`'])

/-- Reads a dotted name. -/
def objectName : Lexer ObjectName :=
  Reader.separatedList1 (char '.') identifier

/-- Reads an alias, with or without the keyword before it. -/
def asName : Lexer String := do
  let _ ← Reader.optional (keyword "AS")
  identifier

/-! ## Numbers -/

/-- Splits off the digits at the front of a text. -/
def takeDigits (s : List Char) : List Char × List Char :=
  (s.takeWhile Char.isDigit, s.dropWhile Char.isDigit)

/-- Splits off the digits of a number with its point: digits that a point and
more digits may follow, or a point and digits. -/
def takeMantissa (s : List Char) : Option (List Char × List Char) :=
  match takeDigits s with
  | ([], '.' :: rest) =>
      match takeDigits rest with
      | ([], _) => none
      | (fraction, left) => some ('.' :: fraction, left)
  | ([], _) => none
  | (whole, '.' :: rest) =>
      let (fraction, left) := takeDigits rest
      some (whole ++ '.' :: fraction, left)
  | (whole, left) => some (whole, left)

/-- Splits off a sign. -/
def takeSign : List Char → List Char × List Char
  | '+' :: rest => (['+'], rest)
  | '-' :: rest => (['-'], rest)
  | s => ([], s)

/-- Splits off an exponent, if there is a whole one. -/
def takeExponent (s : List Char) : List Char × List Char :=
  match s with
  | [] => ([], s)
  | mark :: rest =>
      if mark == 'e' || mark == 'E' then
        let (sign, afterSign) := takeSign rest
        match takeDigits afterSign with
        | ([], _) => ([], s)
        | (digits, left) => (mark :: sign ++ digits, left)
      else ([], s)

/-- Reads the text of a number without a sign. -/
def number : Lexer (List Char) :=
  token fun s =>
    match takeMantissa s with
    | none => .miss s
    | some (mantissa, rest) =>
        let (exponent, left) := takeExponent rest
        .ok (mantissa ++ exponent) left

/-- The value of a text of digits. -/
def digitsValue (digits : List Char) : Nat :=
  digits.foldl (fun value digit => value * 10 + (digit.toNat - '0'.toNat)) 0

/-- The greatest integer constant. -/
def maxInteger : Nat := 9223372036854775807

/-- The least integer constant. -/
def minInteger : Int := -9223372036854775808

/-- The greatest number of rows to keep or to skip. -/
def maxRows : Nat := 18446744073709551615

/-- The constant that the text of a number stands for.  A number with a
fraction or an exponent keeps its text, and so does one beyond the greatest
integer. -/
def numberLiteral (digits : List Char) : Literal :=
  if digits.all Char.isDigit && decide (digitsValue digits ≤ maxInteger) then
    .integer (digitsValue digits)
  else .decimal (String.ofList digits)

/-- Reads one or more digits. -/
def digits : Lexer (List Char) :=
  fun s =>
    match takeDigits s with
    | ([], _) => .miss s
    | (found, left) => .ok found left

/-- Reads a number of rows.  One that is too large fails before the blanks in
front of it. -/
def rowCount : Lexer Nat :=
  fun s =>
    match token digits s with
    | .ok found rest =>
        if digitsValue found ≤ maxRows then .ok (digitsValue found) rest else .miss s
    | .miss place => .miss place
    | .halt place => .halt place
    | .torn place => .torn place

end Lexer

end TripleTables.Sql
