import TripleTables.Proofs.Sql.Parts
import TripleTables.Proofs.Sql.Token

/-!
# Writing statements

A statement as a list of tokens, and its text.  Names and aliases stand in
double quotes and strings in single ones, an alias follows AS, a key of an order
says its direction, and LIMIT stands before OFFSET.  Brackets are written only
where the tree has a node for them: around a nested expression, a subquery, a
derived table, the list of IN and the arguments of a call.
-/

namespace TripleTables.Sql

/-! ## Lists and optional parts -/

/-- Phrases with a separator between them. -/
def listed (separator : Token) : List (List Token) → List Token
  | [] => []
  | first :: rest => first ++ rest.flatMap (separator :: ·)

/-- A phrase in brackets. -/
def inBrackets (tokens : List Token) : List Token :=
  .mark .openBracket :: (tokens ++ [.mark .closeBracket])

/-- A word that is written only if a flag is set. -/
def flagged (flag : Bool) (word : Keyword) : List Token :=
  if flag then [.keyword word] else []

/-- A phrase that may be absent, with the words before it. -/
def led (words : List Keyword) : Option (List Token) → List Token
  | none => []
  | some tokens => words.map .keyword ++ tokens

/-- A list after the words before it; both are absent if the list is empty. -/
def ledList (words : List Keyword) : List (List Token) → List Token
  | [] => []
  | first :: rest => words.map .keyword ++ listed (.mark .comma) (first :: rest)

/-! ## Leaves -/

/-- The parts of a name with full stops between them. -/
def ObjectName.tokens (name : ObjectName) : List Token :=
  listed (.mark .dot) (name.map fun part => [.name part])

/-- An alias. -/
def asNameTokens (name : Option String) : List Token :=
  led [.as] (name.map fun value => [.name value])

/-- A number of rows after its keyword. -/
def rowsTokens (word : Keyword) (rows : Option Nat) : List Token :=
  led [word] (rows.map fun found => [.number (toString found)])

/-- The symbol or the keyword of the operator. -/
def BinaryOp.token : BinaryOp → Token
  | .and => .keyword .and
  | .or => .keyword .or
  | .equal => .mark .equal
  | .notEqual => .mark .notEqual
  | .less => .mark .less
  | .lessEqual => .mark .lessEqual
  | .greater => .mark .greater
  | .greaterEqual => .mark .greaterEqual
  | .plus => .mark .plus
  | .minus => .mark .minus
  | .times => .mark .star
  | .divide => .mark .slash
  | .modulo => .mark .percent
  | .bitAnd => .mark .ampersand
  | .bitOr => .mark .bar
  | .bitXor => .mark .caret
  | .concat => .mark .doubleBar
  | .matching => .mark .doubleAt

/-- The symbol or the keyword of the operator. -/
def UnaryOp.token : UnaryOp → Token
  | .not => .keyword .not
  | .minus => .mark .minus
  | .plus => .mark .plus

/-- A constant; a date or a time has its keyword before the text. -/
def Literal.tokens : Literal → List Token
  | .string value => [.string value]
  | .integer value => [.number (toString value)]
  | .decimal digits => [.number digits]
  | .boolean true => [.keyword .trueWord]
  | .boolean false => [.keyword .falseWord]
  | .date value => [.keyword .date, .string value]
  | .time value => [.keyword .time, .string value]
  | .timestamp value => [.keyword .timestamp, .string value]
  | .null => [.keyword .null]

/-- The words before JOIN. -/
def JoinKind.words : JoinKind → List Keyword
  | .inner => [.inner]
  | .leftOuter => [.left, .outer]
  | .rightOuter => [.right, .outer]
  | .fullOuter => [.full, .outer]

/-! ## Trees -/

mutual

/-- An expression from left to right.  The brackets around operands are those of the
tree. -/
def Expr.tokens : Expr → List Token
  | .column name => name.tokens
  | .literal value => value.tokens
  | .parameter => [.mark .question]
  | .binary op left right => left.tokens ++ op.token :: right.tokens
  | .unary op operand => op.token :: operand.tokens
  | .nested inner => inBrackets inner.tokens
  | .like negated subject pattern =>
      subject.tokens ++ (flagged negated .not ++ .keyword .like :: pattern.tokens)
  | .between negated subject low high =>
      subject.tokens ++
        (flagged negated .not ++ .keyword .between :: (low.tokens ++ .keyword .and :: high.tokens))
  | .inList negated subject items =>
      subject.tokens ++
        (flagged negated .not ++
          .keyword .in :: inBrackets (listed (.mark .comma) (Expr.listTokens items)))
  | .inQuery negated subject query =>
      subject.tokens ++ (flagged negated .not ++ .keyword .in :: inBrackets query.tokens)
  | .isNull negated subject =>
      subject.tokens ++ .keyword .is :: (flagged negated .not ++ [.keyword .null])
  | .call name args distinct star =>
      .function name :: inBrackets
        (if star then [.mark .star]
          else flagged distinct .distinct ++ listed (.mark .comma) (Expr.listTokens args))
  | .existsIn query => .keyword .exists :: inBrackets query.tokens
  | .subquery query => inBrackets query.tokens
  | .compareAny op left query => left.tokens ++ op.token :: .keyword .any :: inBrackets query.tokens
  | .compareAll op left query => left.tokens ++ op.token :: .keyword .all :: inBrackets query.tokens
  | .case operand branches otherwise =>
      .keyword .case ::
        (led [] (Expr.optionTokens operand) ++
          (Branch.listTokens branches ++
            (led [.else] (Expr.optionTokens otherwise) ++ [.keyword .end])))

/-- An expression that may be absent. -/
def Expr.optionTokens : Option Expr → Option (List Token)
  | none => none
  | some e => some e.tokens

/-- Some expressions, a phrase for each. -/
def Expr.listTokens : List Expr → List (List Token)
  | [] => []
  | e :: rest => e.tokens :: Expr.listTokens rest

/-- A branch of a CASE by its condition and its result. -/
def Branch.tokens : Branch → List Token
  | ⟨condition, result⟩ => .keyword .when :: (condition.tokens ++ .keyword .then :: result.tokens)

/-- Some branches, one behind the other. -/
def Branch.listTokens : List Branch → List Token
  | [] => []
  | branch :: rest => branch.tokens ++ Branch.listTokens rest

/-- An item of a select list with its alias. -/
def SelectItem.tokens : SelectItem → List Token
  | .wildcard => [.mark .star]
  | .qualifiedWildcard name => name.tokens ++ [.mark .dot, .mark .star]
  | .expr e name => e.tokens ++ asNameTokens name

/-- Some items, a phrase for each. -/
def SelectItem.listTokens : List SelectItem → List (List Token)
  | [] => []
  | item :: rest => item.tokens :: SelectItem.listTokens rest

/-- A table by its name, or a query in brackets, with its alias. -/
def Source.tokens : Source → List Token
  | .table name asName => name.tokens ++ asNameTokens asName
  | .derived query asName => inBrackets query.tokens ++ asNameTokens asName

/-- A join by its words, its source and its condition. -/
def Join.tokens : Join → List Token
  | ⟨source, .cross⟩ => .keyword .cross :: .keyword .join :: source.tokens
  | ⟨source, .on kind condition⟩ =>
      kind.words.map .keyword ++
        .keyword .join :: (source.tokens ++ led [.on] (Expr.optionTokens condition))

/-- Some joins, one behind the other. -/
def Join.listTokens : List Join → List Token
  | [] => []
  | join :: rest => join.tokens ++ Join.listTokens rest

/-- A source with its joins behind it. -/
def SourceWithJoins.tokens : SourceWithJoins → List Token
  | ⟨source, joins⟩ => source.tokens ++ Join.listTokens joins

/-- Some sources with their joins, a phrase for each. -/
def SourceWithJoins.listTokens : List SourceWithJoins → List (List Token)
  | [] => []
  | source :: rest => source.tokens :: SourceWithJoins.listTokens rest

/-- The key of an order with its direction. -/
def OrderItem.tokens : OrderItem → List Token
  | ⟨e, ascending⟩ => e.tokens ++ [.keyword (if ascending then .asc else .desc)]

/-- Some keys, a phrase for each. -/
def OrderItem.listTokens : List OrderItem → List (List Token)
  | [] => []
  | key :: rest => key.tokens :: OrderItem.listTokens rest

/-- A query by its clauses.  A clause that has nothing in it is left out. -/
def Query.tokens : Query → List Token
  | ⟨distinct, items, sources, condition, groupBy, having, orderBy, limit, offset⟩ =>
      .keyword .select ::
        (flagged distinct .distinct ++
          (listed (.mark .comma) (SelectItem.listTokens items) ++
            (ledList [.from] (SourceWithJoins.listTokens sources) ++
              (led [.where] (Expr.optionTokens condition) ++
                (ledList [.group, .by] (Expr.listTokens groupBy) ++
                  (led [.having] (Expr.optionTokens having) ++
                    (ledList [.order, .by] (OrderItem.listTokens orderBy) ++
                      (rowsTokens .limit limit ++ rowsTokens .offset offset))))))))

end

/-- The text of a query. -/
def print (query : Query) : String :=
  String.ofList (write query.tokens)

/-! ## Lists of trees -/

@[simp]
theorem Expr.optionTokens_eq (e : Option Expr) : Expr.optionTokens e = e.map Expr.tokens := by
  cases e <;> rfl

@[simp]
theorem Expr.listTokens_eq (es : List Expr) : Expr.listTokens es = es.map Expr.tokens :=
  eq_map_of_equations rfl (fun _ _ => rfl) es

@[simp]
theorem Branch.listTokens_eq (branches : List Branch) :
    Branch.listTokens branches = branches.flatMap Branch.tokens :=
  eq_flatMap_of_equations rfl (fun _ _ => rfl) branches

@[simp]
theorem SelectItem.listTokens_eq (items : List SelectItem) :
    SelectItem.listTokens items = items.map SelectItem.tokens :=
  eq_map_of_equations rfl (fun _ _ => rfl) items

@[simp]
theorem Join.listTokens_eq (joins : List Join) :
    Join.listTokens joins = joins.flatMap Join.tokens :=
  eq_flatMap_of_equations rfl (fun _ _ => rfl) joins

@[simp]
theorem SourceWithJoins.listTokens_eq (sources : List SourceWithJoins) :
    SourceWithJoins.listTokens sources = sources.map SourceWithJoins.tokens :=
  eq_map_of_equations rfl (fun _ _ => rfl) sources

@[simp]
theorem OrderItem.listTokens_eq (keys : List OrderItem) :
    OrderItem.listTokens keys = keys.map OrderItem.tokens :=
  eq_map_of_equations rfl (fun _ _ => rfl) keys

/-! ## Weight -/

/-- The number of characters in the tokens, without the spaces between them. -/
def weight (tokens : List Token) : Nat :=
  (tokens.map fun token => token.chars.length).sum

@[simp]
theorem weight_nil : weight [] = 0 :=
  rfl

@[simp]
theorem weight_cons (token : Token) (rest : List Token) :
    weight (token :: rest) = token.chars.length + weight rest := by
  simp [weight]

@[simp]
theorem weight_append (first second : List Token) :
    weight (first ++ second) = weight first + weight second := by
  simp [weight]

theorem weight_le_length_write (tokens : List Token) : weight tokens ≤ (write tokens).length := by
  have gapped : ∀ rest, weight rest ≤ (write rest).length → weight rest ≤ (gap rest).length := by
    intro rest shorter
    cases rest with
    | nil => exact shorter
    | cons next more =>
        rw [gap, List.length_cons]
        omega
  induction tokens with
  | nil => rfl
  | cons token rest ih =>
      have restShorter := gapped rest ih
      rw [weight_cons, write_cons, List.length_append]
      omega

theorem Mark.one_le_length (symbol : Mark) : 1 ≤ (Token.mark symbol).chars.length := by
  obtain ⟨c, more, chars, _⟩ := symbol.startsWith
  simp [chars]

theorem Keyword.one_le_length (word : Keyword) : 1 ≤ (Token.keyword word).chars.length := by
  obtain ⟨c, more, chars, _⟩ := word.isWord
  simp [Token.chars, chars]

theorem UnaryOp.one_le_length (op : UnaryOp) : 1 ≤ op.token.chars.length := by
  cases op with
  | not => exact Keyword.one_le_length .not
  | minus => exact Mark.one_le_length .minus
  | plus => exact Mark.one_le_length .plus

theorem weight_le_led (words : List Keyword) (tokens : List Token) :
    weight tokens ≤ weight (led words (some tokens)) := by
  simp [led]

theorem weight_le_flatMap {α : Type} (phrase : α → List Token) {value : α} {values : List α}
    (member : value ∈ values) : weight (phrase value) ≤ weight (values.flatMap phrase) := by
  induction values with
  | nil => simp at member
  | cons next more ih =>
      rw [List.flatMap_cons, weight_append]
      rcases List.mem_cons.mp member with rfl | member
      · omega
      · have := ih member
        omega

theorem weight_le_listed {α : Type} (separator : Token) (phrase : α → List Token) {value : α}
    {values : List α} (member : value ∈ values) :
    weight (phrase value) ≤ weight (listed separator (values.map phrase)) := by
  cases values with
  | nil => simp at member
  | cons first rest =>
      rw [List.map_cons, listed, List.flatMap_map, weight_append]
      rcases List.mem_cons.mp member with rfl | member
      · omega
      · have inside := weight_le_flatMap (fun value => separator :: phrase value) member
        rw [weight_cons] at inside
        omega

theorem weight_le_ledList {α : Type} (words : List Keyword) (phrase : α → List Token) {value : α}
    {values : List α} (member : value ∈ values) :
    weight (phrase value) ≤ weight (ledList words (values.map phrase)) := by
  have inside := weight_le_listed (.mark .comma) phrase member
  cases values with
  | nil => simp at member
  | cons first rest =>
      rw [List.map_cons] at inside ⊢
      rw [ledList, weight_append]
      omega

theorem weight_inBrackets (tokens : List Token) :
    weight (inBrackets tokens) = weight tokens + 2 := by
  simp [inBrackets, Token.chars, Mark.chars]
  omega

end TripleTables.Sql
