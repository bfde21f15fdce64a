import TripleTables.Proofs.Graph.Constituents
import TripleTables.Proofs.Sql.Opening
import TripleTables.Sparql.Expr

/-!
# A reader of expressions

The text of an expression can be read back.  The first character tells what
stands there: a variable, a string, an operator before its operand, a bracket, a
word, or else a number.  Inside a bracket there is an operand, and the bracket
closes behind it or an operator follows.

Reading back needs constants as they are written in statements.  An integer
with more digits would be read as a decimal, a decimal without a point as an
integer, and a timestamp is written without the blanks around it and with
another character for its first space.
-/

namespace TripleTables

open TripleTables.Graph

/-- The constant is one that a statement can hold, and a timestamp is written as
it is. -/
def Graph.Literal.IsPlain : Literal → Prop
  | .integer value => value.natAbs ≤ Sql.Lexer.maxInteger
  | .decimal digits => Sql.Lexer.IsDecimal digits.toList
  | .timestamp value => Text.trim value.toList = value.toList ∧ ' ' ∉ value.toList
  | _ => True

namespace Sparql

open TripleTables.Sql.Lexer (afterText? takeWhile_run dropWhile_run)

/-! ## The reader -/

/-- What has been read, with the text behind it. -/
abbrev Found (α : Type) := Option (α × List Char)

/-- Something that a closing bracket follows. -/
def closed {α : Type} : Found α → Found α
  | some (value, ')' :: rest) => some (value, rest)
  | _ => none

/-- Reads a variable after its question mark. -/
def readVariable (text : List Char) : Variable × List Char :=
  (⟨String.ofList (text.takeWhile Variable.isNameChar)⟩, text.dropWhile Variable.isNameChar)

/-- The character that is written by a letter after a backslash. -/
def unescapeChar : Char → Char
  | 'n' => '\n'
  | 'r' => '\r'
  | 't' => '\t'
  | other => other

/-- Reads the body of a string and the double quote behind it. -/
def readBody : List Char → Found (List Char)
  | [] => none
  | '"' :: rest => some ([], rest)
  | '\\' :: c :: rest => (readBody rest).map fun found => (unescapeChar c :: found.1, found.2)
  | c :: rest => (readBody rest).map fun found => (c :: found.1, found.2)

/-- The datatypes behind strings and the constants that they mark. -/
def datatypes : List (String × (String → Literal)) :=
  [("date>", .date), ("time>", .time), ("dateTime>", .timestamp)]

/-- Reads a constant after its double quote. -/
def readQuoted (text : List Char) : Found Literal :=
  match readBody text with
  | none => none
  | some (body, rest) =>
      match afterText? ("^^<".toList ++ Literal.datatypeNamespace.toList) rest with
      | none => some (.string (String.ofList body), rest)
      | some rest => datatypes.findSome? fun datatype =>
          (afterText? datatype.1.toList rest).map fun rest =>
            (datatype.2 (String.ofList body), rest)

/-- The characters of numbers. -/
def isNumeralChar (c : Char) : Bool :=
  c.isDigit || c == '.' || c == 'e' || c == 'E' || c == '+' || c == '-'

/-- The constant that the text of a number with its signs stands for. -/
def numeral (text : List Char) : Literal :=
  match text with
  | '-' :: digits =>
      match Sql.Lexer.numberLiteral digits with
      | .integer value => .integer (-value)
      | _ => .decimal (String.ofList text)
  | _ =>
      match Sql.Lexer.numberLiteral text with
      | .integer value => .integer value
      | _ => .decimal (String.ofList text)

/-- The operators between two operands. -/
def operators : List BinaryOp :=
  [.and, .or, .equals, .notEquals, .lessThan, .lessThanOrEqual, .greaterThan,
    .greaterThanOrEqual, .add, .subtract, .multiply, .divide]

/-- The scalar functions. -/
def builtins : List Builtin :=
  [.ucase, .lcase, .strlen, .substr, .replace, .abs, .ceil, .floor, .round, .rand, .now, .year,
    .month, .day, .hours, .minutes, .seconds, .coalesce]

/-- The aggregates. -/
def aggregates : List Aggregate :=
  [.count, .sum, .avg, .min, .max]

section Nodes

variable (inner : List Char → Found Expr) (fuel : Nat)

/-- Reads expressions with commas between them and the bracket behind the
last. -/
def readItems : Nat → List Char → Found (List Expr)
  | 0, _ => none
  | fuel + 1, text =>
      match inner text with
      | some (first, ')' :: rest) => some ([first], rest)
      | some (first, ',' :: ' ' :: rest) =>
          (readItems fuel rest).map fun found => (first :: found.1, found.2)
      | _ => none

/-- Reads a list of expressions after its bracket. -/
def readList : List Char → Found (List Expr)
  | ')' :: rest => some ([], rest)
  | text => readItems inner fuel text

/-- Reads what follows an operand and a space inside a bracket. -/
def readTail (first : Expr) (text : List Char) : Found Expr :=
  match afterText? "IN (".toList text, afterText? "NOT IN (".toList text with
  | some rest, _ =>
      closed ((readList inner fuel rest).map fun found => (.inList first found.1 false, found.2))
  | none, some rest =>
      closed ((readList inner fuel rest).map fun found => (.inList first found.1 true, found.2))
  | none, none =>
      match operators.find? (fun op => op.symbol.toList = text.takeWhile (· != ' ')),
        text.dropWhile (· != ' ') with
      | some op, ' ' :: rest =>
          closed ((inner rest).map fun found => (.binary op first found.1, found.2))
      | _, _ => none

/-- Reads what stands in a bracket. -/
def readBracket (text : List Char) : Found Expr :=
  match inner text with
  | some (first, ')' :: rest) => some (first, rest)
  | some (first, ' ' :: rest) => readTail inner fuel first rest
  | _ => none

/-- Reads the operands of a match with a regular expression. -/
def readRegex (text : List Char) : Found Expr :=
  match inner text with
  | some (subject, ',' :: ' ' :: '"' :: rest) =>
      match readBody rest with
      | some (pattern, ')' :: rest) =>
          some (.regex subject (String.ofList pattern) none, rest)
      | some (pattern, ',' :: ' ' :: '"' :: rest) =>
          closed ((readBody rest).map fun found =>
            (.regex subject (String.ofList pattern) (some (String.ofList found.1)), found.2))
      | _ => none
  | _ => none

/-- Reads the argument of an aggregate. -/
def readArgument (function : Aggregate) (distinct : Bool) (text : List Char) : Found Expr :=
  match text with
  | '*' :: ')' :: rest => some (.aggregate function distinct none, rest)
  | _ => closed ((inner text).map fun found =>
      (.aggregate function distinct (some found.1), found.2))

/-- Reads an aggregate after its bracket. -/
def readAggregate (function : Aggregate) (text : List Char) : Found Expr :=
  match afterText? "DISTINCT ".toList text with
  | some rest => readArgument inner function true rest
  | none => readArgument inner function false text

/-- Reads the call of the function with a name after its bracket. -/
def readCall (word text : List Char) : Found Expr :=
  if word = "REGEX".toList then readRegex inner text
  else if word = "BOUND".toList then
    closed (some (.bound (readVariable text.tail).1, (readVariable text.tail).2))
  else
    match builtins.find? (fun function => function.keyword.toList = word) with
    | some function =>
        (readList inner fuel text).map fun found => (.call function found.1, found.2)
    | none =>
        match aggregates.find? (fun function => function.keyword.toList = word) with
        | some function => readAggregate inner function text
        | none => none

/-- Reads what begins with a word. -/
def readWord (word text : List Char) : Found Expr :=
  if word = "true".toList then some (.constant (.boolean true), text)
  else if word = "false".toList then some (.constant (.boolean false), text)
  else
    match text with
    | '(' :: rest => readCall inner fuel word rest
    | _ => none

/-- Reads an expression whose parts are read by another reader. -/
def readNode : List Char → Found Expr
  | [] => none
  | c :: rest =>
      if c = '?' then some (.variable (readVariable rest).1, (readVariable rest).2)
      else if c = '"' then (readQuoted rest).map fun found => (.constant found.1, found.2)
      else if c = '!' then (inner rest).map fun found => (.not found.1, found.2)
      else if c = '(' then readBracket inner fuel rest
      else if c = '-' ∧ rest.head? = some '(' then
        (inner rest).map fun found => (.negate found.1, found.2)
      else if c.isAlpha then
        readWord inner fuel ((c :: rest).takeWhile Char.isAlpha)
          ((c :: rest).dropWhile Char.isAlpha)
      else if isNumeralChar c then
        some (.constant (numeral ((c :: rest).takeWhile isNumeralChar)),
          (c :: rest).dropWhile isNumeralChar)
      else none

end Nodes

/-- Reads an expression that is nested less deeply than a bound. -/
def readWithin : Nat → List Char → Found Expr
  | 0, _ => none
  | fuel + 1, text => readNode (readWithin fuel) fuel text

/-- Reads a whole text as an expression. -/
def readExpr? (text : List Char) : Option Expr :=
  match readWithin text.length text with
  | some (e, []) => some e
  | _ => none

/-! ## Tokens -/

/-- What may follow an expression. -/
def Ends (rest : List Char) : Prop :=
  ∀ c ∈ rest.head?, c = ' ' ∨ c = ')' ∨ c = ','

theorem ends_nil : Ends [] := by
  simp [Ends]

theorem ends_cons {c : Char} {rest : List Char} (delimiter : c = ' ' ∨ c = ')' ∨ c = ',') :
    Ends (c :: rest) := by
  intro d first
  cases first
  exact delimiter

/-- A reader of single characters stops at the end of an expression. -/
theorem Ends.stops {rest : List Char} (ends : Ends rest) (accepts : Char → Bool)
    (space : accepts ' ' = false) (bracket : accepts ')' = false) (comma : accepts ',' = false) :
    ∀ c ∈ rest.head?, accepts c = false := by
  intro c first
  rcases ends c first with rfl | rfl | rfl
  · exact space
  · exact bracket
  · exact comma

theorem afterText?_append (expected rest : List Char) :
    afterText? expected (expected ++ rest) = some rest := by
  induction expected with
  | nil => rfl
  | cons c more ih => simpa [afterText?] using ih

theorem eq_append_of_afterText? {expected text rest : List Char}
    (found : afterText? expected text = some rest) : text = expected ++ rest := by
  induction expected generalizing text with
  | nil =>
      cases found
      rfl
  | cons c more ih =>
      cases text with
      | nil => cases found
      | cons d text =>
          rw [afterText?] at found
          split at found
          · rename_i same
            rw [eq_of_beq same, ih found, List.cons_append]
          · cases found

theorem readVariable_append {v : Variable} (clean : v.IsClean) {rest : List Char}
    (ends : Ends rest) : readVariable (v.name.toList ++ rest) = (v, rest) := by
  have stop := ends.stops Variable.isNameChar (by decide) (by decide) (by decide)
  rw [readVariable, takeWhile_run clean.isNameChar stop, dropWhile_run clean.isNameChar stop,
    String.ofList_toList]

/-- A body is read up to its closing quote. -/
theorem readBody_escape (body rest : List Char) :
    readBody (Text.escape body ++ '"' :: rest) = some (body, rest) := by
  induction body with
  | nil => rfl
  | cons c more ih =>
      rw [Text.escape_cons, List.append_assoc]
      unfold Text.escapeChar
      split
      · simp [readBody, ih, unescapeChar]
      · simp [readBody, ih, unescapeChar]
      · simp [readBody, ih, unescapeChar]
      · simp [readBody, ih, unescapeChar]
      · simp [readBody, ih, unescapeChar]
      · rename_i noBackslash noQuote _ _ _
        rw [List.singleton_append,
          readBody.eq_4 _ _ noQuote (fun _ _ same _ => noBackslash same), ih]
        rfl

theorem afterText?_of_head {expected : Char} {more rest : List Char}
    (other : ∀ c ∈ rest.head?, c ≠ expected) : afterText? (expected :: more) rest = none := by
  cases rest with
  | nil => rfl
  | cons c rest => simp [afterText?, other c rfl]

/-! ## Constants -/

theorem readQuoted_string (value : String) {rest : List Char} (ends : Ends rest) :
    readQuoted (Text.escape value.toList ++ '"' :: rest) = some (.string value, rest) := by
  have untagged : ∀ c ∈ rest.head?, c ≠ '^' := by
    intro c first
    rcases ends c first with rfl | rfl | rfl <;> decide
  have plain : afterText? ("^^<".toList ++ Literal.datatypeNamespace.toList) rest = none :=
    afterText?_of_head untagged
  rw [readQuoted, readBody_escape]
  simp only [plain, String.ofList_toList]

/-- A tagged constant is read by the entry of its datatype. -/
theorem readQuoted_tagged (value : List Char) (datatype : String) (rest : List Char) :
    readQuoted (Text.escape value ++ '"' :: ("^^<".toList ++ Literal.datatypeNamespace.toList ++
        datatype.toList ++ ['>'] ++ rest)) =
      datatypes.findSome? fun entry =>
        (afterText? entry.1.toList (datatype.toList ++ '>' :: rest)).map fun rest =>
          (entry.2 (String.ofList value), rest) := by
  have tag : afterText? ("^^<".toList ++ Literal.datatypeNamespace.toList)
      ("^^<".toList ++ Literal.datatypeNamespace.toList ++ datatype.toList ++ ['>'] ++ rest) =
        some (datatype.toList ++ '>' :: rest) := by
    have split : "^^<".toList ++ Literal.datatypeNamespace.toList ++ datatype.toList ++ ['>'] ++
        rest = ("^^<".toList ++ Literal.datatypeNamespace.toList) ++
          (datatype.toList ++ '>' :: rest) := by
      simp only [List.append_assoc, List.singleton_append]
    rw [split, afterText?_append]
  rw [readQuoted, readBody_escape]
  simp only [tag]

theorem joinDateTime_of_notMem {text : List Char} (noSpace : ' ' ∉ text) :
    Literal.joinDateTime text = text := by
  induction text with
  | nil => rfl
  | cons c rest ih =>
      rw [List.mem_cons, not_or] at noSpace
      rw [Literal.joinDateTime.eq_3 _ _ (fun same => noSpace.1 same.symm), ih noSpace.2]

/-- A number reads as what it stands for. -/
theorem numeral_toString {value : Int} (inRange : value.natAbs ≤ Sql.Lexer.maxInteger) :
    numeral (toString value).toList = .integer value := by
  cases value with
  | ofNat n =>
      have digits := Sql.Lexer.isDigits_toDigits n
      have literal : Sql.Lexer.numberLiteral (Nat.toDigits 10 n) = .integer n :=
        Sql.Lexer.numberLiteral_toDigits inRange
      show numeral (toString (n : Int)).toList = _
      rw [Sql.toList_toString_natCast]
      unfold numeral
      split
      · rename_i more shape
        have first : '-'.isDigit = true := digits.2 '-' (by rw [shape]; simp)
        exact absurd first (by decide)
      · rw [literal]
        rfl
  | negSucc n =>
      have literal : Sql.Lexer.numberLiteral (Nat.toDigits 10 (n + 1)) = .integer ↑(n + 1) :=
        Sql.Lexer.numberLiteral_toDigits inRange
      rw [Sql.toList_toString_negSucc, numeral, literal]
      rfl

theorem numberLiteral_of_isDecimal {text : List Char} (isDecimal : Sql.Lexer.IsDecimal text) :
    Sql.Lexer.numberLiteral text = .decimal (String.ofList text) := by
  cases isDecimal with
  | unsigned _ noInteger => exact noInteger
  | minus isDecimal => simp [Sql.Lexer.numberLiteral]

theorem numeral_of_isDecimal {text : List Char} (isDecimal : Sql.Lexer.IsDecimal text) :
    numeral text = .decimal (String.ofList text) := by
  cases isDecimal with
  | unsigned isNumber noInteger =>
      unfold numeral
      split
      · obtain ⟨c, more, shape, isFirst⟩ := isNumber.head
        cases shape
        exact absurd isFirst (by decide)
      · rw [noInteger]
  | minus isDecimal => rw [numeral, numberLiteral_of_isDecimal isDecimal]

theorem isNumeralChar_of_isDigit {c : Char} (digit : c.isDigit = true) :
    isNumeralChar c = true := by
  simp [isNumeralChar, digit]

theorem isNumeralChar_of_isNumber {text : List Char} (isNumber : Sql.Lexer.IsNumber text) :
    ∀ c ∈ text, isNumeralChar c = true := by
  obtain ⟨mantissa, exponent, isMantissa, isExponent, rfl⟩ := isNumber
  rw [List.forall_mem_append]
  constructor
  · cases isMantissa with
    | whole isDigits => exact fun c member => isNumeralChar_of_isDigit (isDigits.2 c member)
    | point isDigits inside =>
        rw [List.forall_mem_append, List.forall_mem_cons]
        exact ⟨fun c member => isNumeralChar_of_isDigit (isDigits.2 c member), by decide,
          fun c member => isNumeralChar_of_isDigit (inside c member)⟩
    | fraction isDigits =>
        rw [List.forall_mem_cons]
        exact ⟨by decide, fun c member => isNumeralChar_of_isDigit (isDigits.2 c member)⟩
  · cases isExponent with
    | absent => simp
    | digits isMark isSign isDigits =>
        rw [List.forall_mem_append, List.forall_mem_cons]
        refine ⟨⟨?_, ?_⟩, fun c member => isNumeralChar_of_isDigit (isDigits.2 c member)⟩
        · rcases isMark with rfl | rfl <;> decide
        · rcases isSign with rfl | rfl | rfl
          · simp
          · simp [isNumeralChar]
          · simp [isNumeralChar]

theorem isNumeralChar_of_isDecimal {text : List Char} (isDecimal : Sql.Lexer.IsDecimal text) :
    ∀ c ∈ text, isNumeralChar c = true := by
  induction isDecimal with
  | unsigned isNumber _ => exact isNumeralChar_of_isNumber isNumber
  | minus _ ih => exact List.forall_mem_cons.mpr ⟨by decide, ih⟩

/-- The text of a number with its signs. -/
structure IsNumeral (text : List Char) : Prop where
  head : ∃ c more, text = c :: more ∧ (c.isDigit = true ∨ c = '.' ∨ c = '-')
  inside : ∀ c ∈ text, isNumeralChar c = true

theorem isNumeral_of_isDecimal {text : List Char} (isDecimal : Sql.Lexer.IsDecimal text) :
    IsNumeral text :=
  ⟨isDecimal.head, isNumeralChar_of_isDecimal isDecimal⟩

theorem isNumeral_toString (value : Int) : IsNumeral (toString value).toList := by
  cases value with
  | ofNat n =>
      have digits := Sql.Lexer.isDigits_toDigits n
      obtain ⟨c, more, shape⟩ := List.exists_cons_of_ne_nil digits.1
      show IsNumeral (toString (n : Int)).toList
      rw [Sql.toList_toString_natCast]
      exact ⟨⟨c, more, shape, .inl (digits.2 c (by rw [shape]; simp))⟩,
        fun d member => isNumeralChar_of_isDigit (digits.2 d member)⟩
  | negSucc n =>
      have digits := Sql.Lexer.isDigits_toDigits (n + 1)
      rw [Sql.toList_toString_negSucc]
      exact ⟨⟨'-', _, rfl, .inr (.inr rfl)⟩, List.forall_mem_cons.mpr
        ⟨by decide, fun d member => isNumeralChar_of_isDigit (digits.2 d member)⟩⟩

section Nodes

variable {inner : List Char → Found Expr} {fuel : Nat}

/-- A number is read back; a bracket does not follow its sign, so the sign is no
operator. -/
theorem readNode_numeral {text rest : List Char} (isNumeral : IsNumeral text) (ends : Ends rest) :
    readNode inner fuel (text ++ rest) = some (.constant (numeral text), rest) := by
  have stop := ends.stops isNumeralChar (by decide) (by decide) (by decide)
  have noBracket := ends.stops (· == '(') (by decide) (by decide) (by decide)
  obtain ⟨⟨c, more, rfl, isFirst⟩, inside⟩ := isNumeral
  have noSign : (more ++ rest).head? ≠ some '(' := by
    intro first
    cases more with
    | nil => exact absurd (noBracket '(' first) (by decide)
    | cons d more =>
        cases first
        exact absurd (inside '(' (by simp)) (by decide)
  have noWord : c.isAlpha = false :=
    Sql.isAlpha_eq_false_of_not_isWordStart (Sql.isWordStart_eq_false_of_isDigit isFirst)
  have apart : ∀ d : Char, isNumeralChar d = false → c ≠ d := by
    rintro d other rfl
    rw [inside c (by simp)] at other
    cases other
  rw [List.cons_append, readNode, if_neg (apart _ (by decide)), if_neg (apart _ (by decide)),
    if_neg (apart _ (by decide)), if_neg (apart _ (by decide)), if_neg (fun both => noSign both.2),
    noWord, if_neg Bool.false_ne_true, if_pos (inside c (by simp)), ← List.cons_append,
    takeWhile_run inside stop, dropWhile_run inside stop]

theorem readNode_word {word rest : List Char} (nonempty : word ≠ [])
    (inside : ∀ c ∈ word, c.isAlpha = true) (stop : ∀ c ∈ rest.head?, c.isAlpha = false) :
    readNode inner fuel (word ++ rest) = readWord inner fuel word rest := by
  obtain ⟨c, more, rfl⟩ := List.exists_cons_of_ne_nil nonempty
  have isAlpha := inside c (by simp)
  have apart : ∀ d : Char, d.isAlpha = false → c ≠ d := by
    rintro d other rfl
    rw [isAlpha] at other
    cases other
  rw [List.cons_append, readNode, if_neg (apart _ (by decide)), if_neg (apart _ (by decide)),
    if_neg (apart _ (by decide)), if_neg (apart _ (by decide)),
    if_neg (fun both => apart '-' (by decide) both.1), isAlpha, if_pos rfl, ← List.cons_append,
    takeWhile_run inside stop, dropWhile_run inside stop]

theorem readNode_quote (body rest : List Char) :
    readNode inner fuel (Text.quote body ++ rest) =
      (readQuoted (Text.escape body ++ '"' :: rest)).map fun found =>
        (.constant found.1, found.2) := by
  have shape : Text.quote body ++ rest = '"' :: (Text.escape body ++ '"' :: rest) := by
    simp [Text.quote]
  rw [shape]
  rfl

theorem readNode_tagged (value : List Char) (datatype : String) (rest : List Char) :
    readNode inner fuel (Literal.tagged value datatype ++ rest) =
      (datatypes.findSome? fun entry =>
        (afterText? entry.1.toList (datatype.toList ++ '>' :: rest)).map fun rest =>
          (entry.2 (String.ofList value), rest)).map fun found => (.constant found.1, found.2) := by
  have shape : Literal.tagged value datatype ++ rest =
      Text.quote value ++ ("^^<".toList ++ Literal.datatypeNamespace.toList ++ datatype.toList ++
        ['>'] ++ rest) := by
    simp only [Literal.tagged, List.append_assoc]
  rw [shape, readNode_quote, readQuoted_tagged]

/-- A constant is read back. -/
theorem readNode_constant {value : Literal} (plain : value.IsPlain) {rest : List Char}
    (ends : Ends rest) :
    readNode inner fuel (value.chars ++ rest) = some (.constant value, rest) := by
  have stop := ends.stops Char.isAlpha (by decide) (by decide) (by decide)
  cases value with
  | string value =>
      rw [Literal.chars, readNode_quote, readQuoted_string value ends]
      rfl
  | integer value =>
      rw [Literal.chars, readNode_numeral (isNumeral_toString value) ends, numeral_toString plain]
  | decimal digits =>
      rw [Literal.chars, readNode_numeral (isNumeral_of_isDecimal plain) ends,
        numeral_of_isDecimal plain, String.ofList_toList]
  | boolean value =>
      cases value with
      | true =>
          have isWord : readNode inner fuel ("true".toList ++ rest) = _ :=
            readNode_word (by decide) (List.all_eq_true.mp (by decide)) stop
          exact isWord
      | false =>
          have isWord : readNode inner fuel ("false".toList ++ rest) = _ :=
            readNode_word (by decide) (List.all_eq_true.mp (by decide)) stop
          exact isWord
  | date value =>
      rw [Literal.chars, readNode_tagged, String.ofList_toList]
      rfl
  | time value =>
      rw [Literal.chars, readNode_tagged, String.ofList_toList]
      rfl
  | timestamp value =>
      rw [Literal.chars, Literal.dateTime, plain.1, joinDateTime_of_notMem plain.2,
        readNode_tagged, String.ofList_toList]
      rfl

end Nodes

end Sparql

end TripleTables
