import TripleTables.Proofs.Sql.Parts

/-!
# Rewriting statements leaf by leaf

A `Rewriting` says what becomes of the leaves of a statement: of its names, its aliases,
the names of its functions and its constants.  `Query.rewritten` carries it through the
whole tree, subqueries included, and leaves the shape of the tree as it is.
-/

namespace TripleTables.Sql

/-- What becomes of the leaves of a statement. -/
structure Rewriting where
  /-- The names of tables and columns. -/
  name : ObjectName → ObjectName := id
  /-- What a source or a result is called. -/
  asName : Option String → Option String := id
  /-- The names of functions. -/
  function : String → String := id
  literal : Literal → Literal := id
  /-- The patterns of LIKE that stay as they are. -/
  keeps : Expr → Bool := fun _ => false

section Trees

variable (f : Rewriting)

mutual

/-- The expression with its leaves rewritten. -/
def Expr.rewritten : Expr → Expr
  | .column name => .column (f.name name)
  | .literal value => .literal (f.literal value)
  | .parameter => .parameter
  | .binary op left right => .binary op left.rewritten right.rewritten
  | .unary op operand => .unary op operand.rewritten
  | .nested inner => .nested inner.rewritten
  | .like negated subject pattern =>
      .like negated subject.rewritten (if f.keeps pattern then pattern else pattern.rewritten)
  | .between negated subject low high =>
      .between negated subject.rewritten low.rewritten high.rewritten
  | .inList negated subject items => .inList negated subject.rewritten (Expr.listRewritten items)
  | .inQuery negated subject query => .inQuery negated subject.rewritten query.rewritten
  | .isNull negated subject => .isNull negated subject.rewritten
  | .call name args distinct star =>
      .call (f.function name) (Expr.listRewritten args) distinct star
  | .existsIn query => .existsIn query.rewritten
  | .subquery query => .subquery query.rewritten
  | .compareAny op left query => .compareAny op left.rewritten query.rewritten
  | .compareAll op left query => .compareAll op left.rewritten query.rewritten
  | .case operand branches otherwise =>
      .case (Expr.optionRewritten operand) (Branch.listRewritten branches)
        (Expr.optionRewritten otherwise)

/-- An expression that may be absent, rewritten. -/
def Expr.optionRewritten : Option Expr → Option Expr
  | none => none
  | some e => some e.rewritten

/-- Some expressions, each rewritten. -/
def Expr.listRewritten : List Expr → List Expr
  | [] => []
  | e :: rest => e.rewritten :: Expr.listRewritten rest

/-- The branch with its leaves rewritten. -/
def Branch.rewritten : Branch → Branch
  | ⟨condition, result⟩ => ⟨condition.rewritten, result.rewritten⟩

/-- Some branches, each rewritten. -/
def Branch.listRewritten : List Branch → List Branch
  | [] => []
  | branch :: rest => branch.rewritten :: Branch.listRewritten rest

/-- The item of a select list with its leaves rewritten. -/
def SelectItem.rewritten : SelectItem → SelectItem
  | .wildcard => .wildcard
  | .qualifiedWildcard name => .qualifiedWildcard (f.name name)
  | .expr e asName => .expr e.rewritten (f.asName asName)

/-- Some items, each rewritten. -/
def SelectItem.listRewritten : List SelectItem → List SelectItem
  | [] => []
  | item :: rest => item.rewritten :: SelectItem.listRewritten rest

/-- The source with its leaves rewritten. -/
def Source.rewritten : Source → Source
  | .table name asName => .table (f.name name) (f.asName asName)
  | .derived query asName => .derived query.rewritten (f.asName asName)

/-- The rule of a join with the leaves of its condition rewritten. -/
def JoinRule.rewritten : JoinRule → JoinRule
  | .cross => .cross
  | .on kind condition => .on kind (Expr.optionRewritten condition)

/-- The join with its leaves rewritten. -/
def Join.rewritten : Join → Join
  | ⟨source, rule⟩ => ⟨source.rewritten, rule.rewritten⟩

/-- Some joins, each rewritten. -/
def Join.listRewritten : List Join → List Join
  | [] => []
  | join :: rest => join.rewritten :: Join.listRewritten rest

/-- The source and its joins with their leaves rewritten. -/
def SourceWithJoins.rewritten : SourceWithJoins → SourceWithJoins
  | ⟨source, joins⟩ => ⟨source.rewritten, Join.listRewritten joins⟩

/-- Some sources with their joins, each rewritten. -/
def SourceWithJoins.listRewritten : List SourceWithJoins → List SourceWithJoins
  | [] => []
  | source :: rest => source.rewritten :: SourceWithJoins.listRewritten rest

/-- The key of an order with its leaves rewritten. -/
def OrderItem.rewritten : OrderItem → OrderItem
  | ⟨e, ascending⟩ => ⟨e.rewritten, ascending⟩

/-- Some keys, each rewritten. -/
def OrderItem.listRewritten : List OrderItem → List OrderItem
  | [] => []
  | key :: rest => key.rewritten :: OrderItem.listRewritten rest

/-- The query with its leaves rewritten. -/
def Query.rewritten : Query → Query
  | ⟨distinct, items, sources, condition, groupBy, having, orderBy, limit, offset⟩ =>
      ⟨distinct, SelectItem.listRewritten items, SourceWithJoins.listRewritten sources,
        Expr.optionRewritten condition, Expr.listRewritten groupBy, Expr.optionRewritten having,
        OrderItem.listRewritten orderBy, limit, offset⟩

end

@[simp]
theorem Expr.optionRewritten_eq_map (e : Option Expr) :
    Expr.optionRewritten f e = e.map (Expr.rewritten f) := by
  cases e <;> rfl

@[simp]
theorem Expr.listRewritten_eq_map (es : List Expr) :
    Expr.listRewritten f es = es.map (Expr.rewritten f) :=
  eq_map_of_equations rfl (fun _ _ => rfl) es

@[simp]
theorem Branch.listRewritten_eq_map (branches : List Branch) :
    Branch.listRewritten f branches = branches.map (Branch.rewritten f) :=
  eq_map_of_equations rfl (fun _ _ => rfl) branches

@[simp]
theorem SelectItem.listRewritten_eq_map (items : List SelectItem) :
    SelectItem.listRewritten f items = items.map (SelectItem.rewritten f) :=
  eq_map_of_equations rfl (fun _ _ => rfl) items

@[simp]
theorem Join.listRewritten_eq_map (joins : List Join) :
    Join.listRewritten f joins = joins.map (Join.rewritten f) :=
  eq_map_of_equations rfl (fun _ _ => rfl) joins

@[simp]
theorem SourceWithJoins.listRewritten_eq_map (sources : List SourceWithJoins) :
    SourceWithJoins.listRewritten f sources = sources.map (SourceWithJoins.rewritten f) :=
  eq_map_of_equations rfl (fun _ _ => rfl) sources

@[simp]
theorem OrderItem.listRewritten_eq_map (keys : List OrderItem) :
    OrderItem.listRewritten f keys = keys.map (OrderItem.rewritten f) :=
  eq_map_of_equations rfl (fun _ _ => rfl) keys

end Trees

end TripleTables.Sql
