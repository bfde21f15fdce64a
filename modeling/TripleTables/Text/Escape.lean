/-!
# Escapes inside double quotes

The body of a double-quoted SPARQL string.  A backslash and a double quote are
written with a backslash before them, and the three control characters that
may not stand in such a string are written as `\n`, `\r` and `\t`.
-/

namespace TripleTables.Text

/-- The written form of one character of a string body. -/
def escapeChar : Char → List Char
  | '\\' => ['\\', '\\']
  | '"' => ['\\', '"']
  | '\n' => ['\\', 'n']
  | '\r' => ['\\', 'r']
  | '\t' => ['\\', 't']
  | other => [other]

/-- The written form of a string body. -/
def escape (text : List Char) : List Char :=
  text.flatMap escapeChar

/-- The written form of a string: its escaped body between double quotes. -/
def quote (text : List Char) : List Char :=
  '"' :: escape text ++ ['"']

@[simp]
theorem escape_nil : escape [] = [] :=
  rfl

@[simp]
theorem escape_cons (c : Char) (text : List Char) :
    escape (c :: text) = escapeChar c ++ escape text := by
  simp [escape]

@[simp]
theorem escape_append (left right : List Char) :
    escape (left ++ right) = escape left ++ escape right := by
  simp [escape]

end TripleTables.Text
