/-!
# Floating numerals

The texts that denote a floating-point number: an optional sign, then one of
the words `inf`, `infinity`, `nan` in any letter case, or decimal digits with
at most one point and an optional exponent.  At least one digit stands before
or after the point.
-/

namespace TripleTables.Text

/-- A text without one leading sign. -/
def dropSign : List Char → List Char
  | '+' :: rest => rest
  | '-' :: rest => rest
  | text => text

/-- One or more digits and nothing else. -/
def isDigits (text : List Char) : Bool :=
  !text.isEmpty && text.all Char.isDigit

/-- Nothing, or an exponent mark followed by an optional sign and digits. -/
def isExponent : List Char → Bool
  | [] => true
  | mark :: rest => (mark == 'e' || mark == 'E') && isDigits (dropSign rest)

/-- What may follow the integer digits of a numeral.  `whole` tells whether
there were any. -/
def isFraction (whole : Bool) : List Char → Bool
  | '.' :: rest =>
      (whole || (rest.head?.any Char.isDigit)) && isExponent (rest.dropWhile Char.isDigit)
  | text => whole && isExponent text

/-- A decimal numeral without its sign. -/
def isDecimal (text : List Char) : Bool :=
  isFraction (text.head?.any Char.isDigit) (text.dropWhile Char.isDigit)

/-- The words that denote a number that has no digits. -/
def numeralWords : List String :=
  ["inf", "infinity", "nan"]

/-- A text denotes a floating-point number. -/
def isNumeral (text : List Char) : Bool :=
  let body := dropSign text
  numeralWords.any (fun word => word.toList == body.map Char.toLower) || isDecimal body

end TripleTables.Text
