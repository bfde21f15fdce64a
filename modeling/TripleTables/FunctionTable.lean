import TripleTables.Graph.Expr

/-!
# The table of SQL functions

Each SQL function is mapped to a scalar function or an aggregate of SPARQL,
with the numbers of arguments it takes and perhaps a transform of its
arguments.  Names are compared without regard to the case of ASCII letters.
-/

namespace TripleTables

open TripleTables.Graph

/-- What a SQL function becomes. -/
inductive FunctionTarget where
  | scalar (function : Builtin)
  | aggregate (function : Aggregate)
deriving DecidableEq, Repr

/-- The target's name in SPARQL. -/
def FunctionTarget.keyword : FunctionTarget → String
  | .scalar function => function.keyword
  | .aggregate function => function.keyword

/-- One SQL function. -/
structure FunctionEntry where
  /-- The name under which the function was registered. -/
  name : String
  target : FunctionTarget
  minArgs : Nat
  /-- The greatest number of arguments; none when there is no limit. -/
  maxArgs : Option Nat
  /-- What is done to the compiled arguments before the call is built.  Whoever
  registers the function supplies it, and what it gives is not looked at. -/
  transform : Option (List Expr → List Expr) := none

namespace FunctionEntry

/-- The function takes this many arguments. -/
def accepts (entry : FunctionEntry) (count : Nat) : Bool :=
  decide (entry.minArgs ≤ count) && entry.maxArgs.all (fun limit => decide (count ≤ limit))

/-- The numbers of arguments in words. -/
def arity (entry : FunctionEntry) : String :=
  match entry.maxArgs with
  | some limit =>
      if limit = entry.minArgs then toString limit
      else toString entry.minArgs ++ ".." ++ toString limit
  | none => "at least " ++ toString entry.minArgs

/-- The arguments that are handed on to the target. -/
def handOn (entry : FunctionEntry) (args : List Expr) : List Expr :=
  match entry.transform with
  | some transform => transform args
  | none => args

end FunctionEntry

namespace Transform

/-- A text and a length become the text, the position one and the length. -/
def fromStart : List Expr → List Expr
  | s :: n :: _ => [s, .integer 1, n]
  | args => args

/-- What matches the pattern is replaced by nothing. -/
def removing (pattern : String) (args : List Expr) : List Expr :=
  args ++ [.string pattern, .string ""]

end Transform

/-- The functions that statements may call, under their names in upper
case. -/
structure FunctionTable where
  entries : List (String × FunctionEntry) := []

namespace FunctionTable

/-- The name under which a function is found: ASCII letters in upper case. -/
def key (name : String) : String :=
  String.ofList (name.toList.map Char.toUpper)

/-- The entries with the one under `key` replaced, or a new one at the end. -/
def put (key : String) (entry : FunctionEntry) :
    List (String × FunctionEntry) → List (String × FunctionEntry)
  | [] => [(key, entry)]
  | first :: rest =>
      if first.1 = key then (key, entry) :: rest else first :: put key entry rest

/-- The table with one more function, which replaces one of the same name. -/
def register (table : FunctionTable) (entry : FunctionEntry) : FunctionTable :=
  ⟨put (key entry.name) entry table.entries⟩

/-- The function with this name. -/
def get? (table : FunctionTable) (name : String) : Option FunctionEntry :=
  table.entries.lookup (key name)

/-- The number of functions. -/
def size (table : FunctionTable) : Nat :=
  table.entries.length

/-- A scalar function with between `least` and `most` arguments. -/
def scalar (name : String) (function : Builtin) (least most : Nat) : FunctionEntry :=
  { name, target := .scalar function, minArgs := least, maxArgs := some most }

/-- A scalar function of `count` arguments that are transformed. -/
def scalarAs (transform : List Expr → List Expr) (name : String) (function : Builtin)
    (count : Nat) : FunctionEntry :=
  { name
    target := .scalar function
    minArgs := count
    maxArgs := some count
    transform := some transform }

/-- An aggregate of one argument. -/
def aggregate (name : String) (function : Aggregate) : FunctionEntry :=
  { name, target := .aggregate function, minArgs := 1, maxArgs := some 1 }

/-- The standard functions. -/
def standardEntries : List FunctionEntry :=
  [ scalar "UPPER" .ucase 1 1
    , scalar "UCASE" .ucase 1 1
    , scalar "LOWER" .lcase 1 1
    , scalar "LCASE" .lcase 1 1
    , scalar "LENGTH" .strlen 1 1
    , scalar "CHAR_LENGTH" .strlen 1 1
    , scalar "CHARACTER_LENGTH" .strlen 1 1
    , scalar "SUBSTRING" .substr 2 3
    , scalar "SUBSTR" .substr 2 3
    , scalarAs Transform.fromStart "LEFT" .substr 2
    , scalarAs (Transform.removing "^\\s+|\\s+$") "TRIM" .replace 1
    , scalarAs (Transform.removing "^\\s+") "LTRIM" .replace 1
    , scalarAs (Transform.removing "\\s+$") "RTRIM" .replace 1
    , scalar "REPLACE" .replace 3 3
    , scalar "ABS" .abs 1 1
    , scalar "CEIL" .ceil 1 1
    , scalar "CEILING" .ceil 1 1
    , scalar "FLOOR" .floor 1 1
    , scalar "ROUND" .round 1 1
    , scalar "RAND" .rand 0 0
    , scalar "NOW" .now 0 0
    , scalar "CURRENT_TIMESTAMP" .now 0 0
    , scalar "YEAR" .year 1 1
    , scalar "MONTH" .month 1 1
    , scalar "DAY" .day 1 1
    , scalar "DAYOFMONTH" .day 1 1
    , scalar "HOUR" .hours 1 1
    , scalar "MINUTE" .minutes 1 1
    , scalar "SECOND" .seconds 1 1
    , { name := "COALESCE", target := .scalar .coalesce, minArgs := 1, maxArgs := none }
    , scalar "IFNULL" .coalesce 2 2
    , aggregate "COUNT" .count
    , aggregate "SUM" .sum
    , aggregate "AVG" .avg
    , aggregate "MIN" .min
    , aggregate "MAX" .max ]

/-- The table of the standard functions. -/
def standard : FunctionTable :=
  standardEntries.foldl register {}

end FunctionTable

end TripleTables
