/-!
# JSON texts

Values of JSON whose objects keep the order of their fields, and their text
over several lines, indented by two spaces a level.
-/

namespace TripleTables

/-- A value of JSON. -/
inductive Json where
  | null
  | boolean (value : Bool)
  | integer (value : Int)
  /-- The number `digits / 10 ^ places`. -/
  | fraction (digits : Int) (places : Nat)
  | string (value : String)
  | list (items : List Json)
  | object (fields : List (String × Json))
deriving Inhabited, Repr

namespace Json

/-- The value, or null if there is none. -/
def ofOption {α : Type} (encode : α → Json) : Option α → Json
  | some value => encode value
  | none => .null

/-- The list of the values. -/
def ofList {α : Type} (encode : α → Json) (values : List α) : Json :=
  .list (values.map encode)

/-- A natural number. -/
def natural (value : Nat) : Json :=
  .integer (Int.ofNat value)

/-- The object with one field. -/
def tagged (tag : String) (value : Json) : Json :=
  .object [(tag, value)]

/-! ## Reading values -/

/-- The field of an object. -/
def field? : Json → String → Option Json
  | .object fields, name => fields.lookup name
  | _, _ => none

/-- The field of an object, null if it is missing. -/
def fieldOrNull (value : Json) (name : String) : Json :=
  (value.field? name).getD .null

/-- The value of a string. -/
def string? : Json → Option String
  | .string value => some value
  | _ => none

/-- The value of a truth value. -/
def boolean? : Json → Option Bool
  | .boolean value => some value
  | _ => none

/-- The value of an integer of 64 bits with a sign. -/
def integer? : Json → Option Int
  | .integer value => if -Int.pow 2 63 ≤ value ∧ value < Int.pow 2 63 then some value else none
  | _ => none

/-- The value of an integer of 64 bits without a sign. -/
def natural? : Json → Option Nat
  | .integer value => if 0 ≤ value ∧ value < Int.pow 2 64 then some value.toNat else none
  | _ => none

/-- The items of a list. -/
def items? : Json → Option (List Json)
  | .list items => some items
  | _ => none

/-- The items of a list, each of them read. -/
def list? {α : Type} (read : Json → Option α) (value : Json) : Option (List α) := do
  (← value.items?).mapM read

/-- The value that is read, or none for null. -/
def option? {α : Type} (read : Json → Option α) : Json → Option (Option α)
  | .null => some none
  | value => some <$> read value

/-- The value with the fields of a record by their names.  A record may also be
the list of its values, in order. -/
def named (names : List String) : Json → Json
  | .list items =>
      if items.length = names.length then .object (names.zip items) else .list items
  | value => value

/-- The name of a case without content. -/
def label? : Json → Option String
  | .string label => some label
  | .object [(label, .null)] => some label
  | _ => none

/-- The tag and the content of an object with one field. -/
def tagged? : Json → Option (String × Json)
  | .object [(tag, content)] => some (tag, content)
  | _ => none

/-! ## Text -/

/-- A number with the given count of digits after the point. -/
def fractionChars (digits : Int) (places : Nat) : List Char :=
  let unit := Nat.pow 10 places
  let whole := digits.natAbs / unit
  let part := (toString (digits.natAbs % unit)).toList
  (if digits < 0 then ['-'] else []) ++ (toString whole).toList ++ ['.'] ++
    List.replicate (places - part.length) '0' ++ part

/-- The written form of a control character: four hexadecimal digits. -/
def controlChars (c : Char) : List Char :=
  let digits := Nat.toDigits 16 c.toNat
  ['\\', 'u'] ++ List.replicate (4 - digits.length) '0' ++ digits

/-- The written form of one character of a string. -/
def stringChar (c : Char) : List Char :=
  if c = '"' then ['\\', '"']
  else if c = '\\' then ['\\', '\\']
  else if c = '\n' then ['\\', 'n']
  else if c = '\r' then ['\\', 'r']
  else if c = '\t' then ['\\', 't']
  else if c = '\x08' then ['\\', 'b']
  else if c = '\x0c' then ['\\', 'f']
  else if c.toNat < 32 then controlChars c
  else [c]

/-- The written form of a string. -/
def stringChars (value : String) : List Char :=
  '"' :: value.toList.flatMap stringChar ++ ['"']

/-- The start of a line at a depth. -/
def newLine (depth : Nat) : List Char :=
  '\n' :: List.replicate (2 * depth) ' '

mutual

/-- The text of a value at a depth, as characters. -/
def chars (depth : Nat) : Json → List Char
  | .null => "null".toList
  | .boolean value => (if value then "true" else "false").toList
  | .integer value => (toString value).toList
  | .fraction digits places => fractionChars digits places
  | .string value => stringChars value
  | .list [] => "[]".toList
  | .list (item :: rest) =>
      '[' :: newLine (depth + 1) ++ chars (depth + 1) item ++ itemsChars (depth + 1) rest ++
        newLine depth ++ [']']
  | .object [] => "\x7b\x7d".toList
  | .object ((name, value) :: rest) =>
      '\x7b' :: newLine (depth + 1) ++ stringChars name ++ ": ".toList ++
        chars (depth + 1) value ++ fieldsChars (depth + 1) rest ++ newLine depth ++ ['\x7d']

/-- The items after the first one. -/
def itemsChars (depth : Nat) : List Json → List Char
  | [] => []
  | item :: rest => ',' :: newLine depth ++ chars depth item ++ itemsChars depth rest

/-- The fields after the first one. -/
def fieldsChars (depth : Nat) : List (String × Json) → List Char
  | [] => []
  | (name, value) :: rest =>
      ',' :: newLine depth ++ stringChars name ++ ": ".toList ++ chars depth value ++
        fieldsChars depth rest

end

/-- The text of a value over several lines. -/
def text (value : Json) : String :=
  String.ofList (chars 0 value)

end Json

end TripleTables
