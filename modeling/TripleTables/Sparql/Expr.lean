import TripleTables.Graph.Expr

/-!
# The text of expressions

An operator with two operands is written in brackets, so the text needs no
precedence.  Where the surrounding syntax supplies brackets, a pair that
encloses the whole text is left out.
-/

namespace TripleTables.Sparql

open TripleTables.Graph

/-- Texts with a separator between them. -/
def joined (separator : List Char) : List (List Char) → List Char
  | [] => []
  | [text] => text
  | text :: rest => text ++ separator ++ joined separator rest

/-! ## Brackets around a whole text -/

/-- Where a scan of a text stands. -/
inductive Scan where
  | plain
  /-- Inside a string. -/
  | quoted
  /-- Directly after a backslash inside a string. -/
  | escaped
deriving DecidableEq, Repr

/-- No bracket outside strings closes more than has been opened; `depth`
brackets are open at the start. -/
def isBalanced : Scan → Nat → List Char → Bool
  | _, _, [] => true
  | .escaped, depth, _ :: rest => isBalanced .quoted depth rest
  | .quoted, depth, c :: rest =>
      if c = '\\' then isBalanced .escaped depth rest
      else if c = '"' then isBalanced .plain depth rest
      else isBalanced .quoted depth rest
  | .plain, depth, c :: rest =>
      if c = '"' then isBalanced .quoted depth rest
      else if c = '(' then isBalanced .plain (depth + 1) rest
      else if c = ')' then
        match depth with
        | 0 => false
        | depth + 1 => isBalanced .plain depth rest
      else isBalanced .plain depth rest

/-- The text without the brackets around it, if there is a pair that encloses
the whole. -/
def unwrapped : List Char → List Char
  | '(' :: rest =>
      if rest.getLast? = some ')' ∧ isBalanced .plain 0 rest.dropLast then rest.dropLast
      else '(' :: rest
  | text => text

/-- The text in exactly one pair of brackets of its own. -/
def wrapped (text : List Char) : List Char :=
  '(' :: unwrapped text ++ [')']

/-! ## Expressions -/

mutual

/-- The expression as SPARQL writes it, as characters. -/
def exprChars : Expr → List Char
  | .variable v => v.text.toList
  | .constant value => value.chars
  | .binary op left right =>
      '(' :: exprChars left ++ [' '] ++ op.symbol.toList ++ [' '] ++ exprChars right ++ [')']
  | .not operand => '!' :: wrapped (exprChars operand)
  | .negate operand => '-' :: wrapped (exprChars operand)
  | .regex subject pattern none =>
      "REGEX(".toList ++ exprChars subject ++ ", ".toList ++ Text.quote pattern.toList ++ [')']
  | .regex subject pattern (some flags) =>
      "REGEX(".toList ++ exprChars subject ++ ", ".toList ++ Text.quote pattern.toList ++
        ", ".toList ++ Text.quote flags.toList ++ [')']
  | .inList subject items negated =>
      '(' :: exprChars subject ++ (if negated then " NOT IN (" else " IN (").toList ++
        joined ", ".toList (allChars items) ++ "))".toList
  | .bound v => "BOUND(".toList ++ v.text.toList ++ [')']
  | .call function args =>
      function.keyword.toList ++ '(' :: joined ", ".toList (allChars args) ++ [')']
  | .aggregate function distinct none =>
      function.keyword.toList ++ (if distinct then "(DISTINCT " else "(").toList ++ "*)".toList
  | .aggregate function distinct (some arg) =>
      function.keyword.toList ++ (if distinct then "(DISTINCT " else "(").toList ++
        exprChars arg ++ [')']

/-- The expressions as SPARQL writes them, as characters. -/
def allChars : List Expr → List (List Char)
  | [] => []
  | e :: rest => exprChars e :: allChars rest

end

section Equations

variable (v : Variable) (subject operand arg : Expr) (args : List Expr) (pattern flags : String)

theorem exprChars_variable : exprChars (.variable v) = '?' :: v.name.toList :=
  String.toList_append

theorem exprChars_constant (value : Literal) : exprChars (.constant value) = value.chars :=
  rfl

theorem exprChars_binary (op : BinaryOp) (left right : Expr) :
    exprChars (.binary op left right) =
      '(' :: exprChars left ++ [' '] ++ op.symbol.toList ++ [' '] ++ exprChars right ++ [')'] :=
  rfl

theorem exprChars_not : exprChars (.not operand) = '!' :: wrapped (exprChars operand) :=
  rfl

theorem exprChars_negate : exprChars (.negate operand) = '-' :: wrapped (exprChars operand) :=
  rfl

theorem exprChars_regex_none :
    exprChars (.regex subject pattern none) =
      "REGEX(".toList ++ exprChars subject ++ ", ".toList ++ Text.quote pattern.toList ++ [')'] :=
  rfl

theorem exprChars_regex_some :
    exprChars (.regex subject pattern (some flags)) =
      "REGEX(".toList ++ exprChars subject ++ ", ".toList ++ Text.quote pattern.toList ++
        ", ".toList ++ Text.quote flags.toList ++ [')'] :=
  rfl

theorem exprChars_inList (negated : Bool) :
    exprChars (.inList subject args negated) =
      '(' :: exprChars subject ++ (if negated then " NOT IN (" else " IN (").toList ++
        joined ", ".toList (allChars args) ++ "))".toList :=
  rfl

theorem exprChars_bound : exprChars (.bound v) = "BOUND(?".toList ++ v.name.toList ++ [')'] := by
  show "BOUND(".toList ++ ("?" ++ v.name).toList ++ [')'] = _
  rw [String.toList_append]
  rfl

theorem exprChars_call (function : Builtin) :
    exprChars (.call function args) =
      function.keyword.toList ++ '(' :: joined ", ".toList (allChars args) ++ [')'] :=
  rfl

theorem exprChars_aggregate_none (function : Aggregate) (distinct : Bool) :
    exprChars (.aggregate function distinct none) =
      function.keyword.toList ++ (if distinct then "(DISTINCT " else "(").toList ++
        "*)".toList :=
  rfl

theorem exprChars_aggregate_some (function : Aggregate) (distinct : Bool) :
    exprChars (.aggregate function distinct (some arg)) =
      function.keyword.toList ++ (if distinct then "(DISTINCT " else "(").toList ++
        exprChars arg ++ [')'] :=
  rfl

end Equations

/-- The texts of a list of expressions are those of its members. -/
theorem allChars_eq_map (es : List Expr) : allChars es = es.map exprChars := by
  induction es with
  | nil => rfl
  | cons e rest ih => simp [allChars, ih]

/-- The expression as SPARQL writes it. -/
def exprText (e : Expr) : String :=
  String.ofList (exprChars e)

/-- The expression in brackets, as a filter or an order key wants it. -/
def bracketedChars (e : Expr) : List Char :=
  wrapped (exprChars e)

end TripleTables.Sparql
