import TripleTables.Sql.Syntax

/-!
# Parts and levels of a statement

A statement is a tree of expressions, items of select lists, sources and
queries, and all of them may be nested in each other.  `Expr.parts` and
`Query.parts` list a tree with everything inside it, so that a property of all
nodes is a property of the members of a list.

The operators of expressions bind on levels, from OR, the loosest, to what
stands for itself.  `Expr.Grouped` says of one node that its operands bind at
least as tightly as the node needs them to where no brackets are written.
-/

namespace TripleTables.Sql

/-! ## Levels -/

/-- How tightly an operator binds. -/
def BinaryOp.level : BinaryOp → Nat
  | .or => 0
  | .and => 1
  | .equal | .notEqual | .less | .lessEqual | .greater | .greaterEqual | .matching => 3
  | .bitAnd | .bitOr | .bitXor => 4
  | .plus | .minus | .concat => 5
  | .times | .divide | .modulo => 6

theorem BinaryOp.level_le (op : BinaryOp) : op.level ≤ 6 := by
  cases op <;> decide

/-- How tightly an operator before its operand binds. -/
def UnaryOp.level : UnaryOp → Nat
  | .not => 2
  | .minus | .plus => 7

/-- The level of an expression: that of its outermost operator.  A predicate
stands on the level of the comparisons, and what is no operator with operands
on the tightest. -/
def Expr.level : Expr → Nat
  | .binary op _ _ => op.level
  | .unary op _ => op.level
  | .like _ _ _ | .between _ _ _ _ | .inList _ _ _ | .inQuery _ _ _ | .isNull _ _
  | .compareAny _ _ _ | .compareAll _ _ _ => 3
  | .column _ | .literal _ | .parameter | .nested _ | .call _ _ _ _ | .existsIn _ | .subquery _
  | .case _ _ _ => 8

/-- Only a negation stands on the level of negations. -/
theorem Expr.eq_not_of_level {e : Expr} (same : e.level = 2) :
    ∃ operand, e = .unary .not operand := by
  cases e with
  | unary op operand =>
      cases op with
      | not => exact ⟨operand, rfl⟩
      | minus | plus => simp [Expr.level, UnaryOp.level] at same
  | binary op left right => cases op <;> simp [Expr.level, BinaryOp.level] at same
  | _ => simp [Expr.level] at same

/-- On the levels of chained operators there are only such operators. -/
theorem Expr.eq_binary_of_level {e : Expr} (chained : e.level ∈ [0, 1, 4, 5, 6]) :
    ∃ op left right, e = .binary op left right := by
  cases e with
  | binary op left right => exact ⟨op, left, right, rfl⟩
  | unary op operand => cases op <;> simp [Expr.level, UnaryOp.level] at chained
  | _ => simp [Expr.level] at chained

/-- An expression that needs no operand beside it. -/
inductive Expr.StandsAlone : Expr → Prop
  | column (name : ObjectName) : StandsAlone (.column name)
  | literal (value : Literal) : StandsAlone (.literal value)
  | parameter : StandsAlone .parameter
  | nested (inner : Expr) : StandsAlone (.nested inner)
  | subquery (query : Query) : StandsAlone (.subquery query)
  | existsIn (query : Query) : StandsAlone (.existsIn query)
  | case (operand : Option Expr) (branches : List Branch) (otherwise : Option Expr) :
      StandsAlone (.case operand branches otherwise)
  | call (name : String) (args : List Expr) (distinct star : Bool) :
      StandsAlone (.call name args distinct star)

/-- Signs bind more tightly than all other operators, and what stands alone
binds most tightly. -/
theorem Expr.eq_unary_or_standsAlone {e : Expr} (tight : 7 ≤ e.level) :
    (∃ op operand, e = .unary op operand) ∨ e.StandsAlone := by
  cases e with
  | unary op operand => exact .inl ⟨op, operand, rfl⟩
  | binary op left right =>
      have bound := op.level_le
      simp only [Expr.level] at tight
      omega
  | like _ _ _ | between _ _ _ _ | inList _ _ _ | inQuery _ _ _ | isNull _ _ | compareAny _ _ _
  | compareAll _ _ _ =>
      simp only [Expr.level] at tight
      contradiction
  | column name => exact .inr (.column name)
  | literal value => exact .inr (.literal value)
  | parameter => exact .inr .parameter
  | nested inner => exact .inr (.nested inner)
  | subquery query => exact .inr (.subquery query)
  | existsIn query => exact .inr (.existsIn query)
  | case operand branches otherwise => exact .inr (.case operand branches otherwise)
  | call name args distinct star => exact .inr (.call name args distinct star)

/-- The operands of a node bind as tightly as the node needs: operators group
to the left, the subject of a predicate is at least a predicate, and its other
operands bind more tightly than predicates. -/
def Expr.Grouped : Expr → Prop
  | .binary op left right => op.level ≤ left.level ∧ op.level + 1 ≤ right.level
  | .unary op operand => op.level ≤ operand.level
  | .like _ subject pattern => 3 ≤ subject.level ∧ 4 ≤ pattern.level
  | .between _ subject low high => 3 ≤ subject.level ∧ 4 ≤ low.level ∧ 4 ≤ high.level
  | .inList _ subject _ | .inQuery _ subject _ | .isNull _ subject => 3 ≤ subject.level
  | .compareAny _ left _ | .compareAll _ left _ => 3 ≤ left.level
  | .column _ | .literal _ | .parameter | .nested _ | .call _ _ _ _ | .existsIn _ | .subquery _
  | .case _ _ _ => True

instance : (e : Expr) → Decidable e.Grouped
  | .binary _ _ _ | .like _ _ _ => inferInstanceAs (Decidable (_ ∧ _))
  | .between _ _ _ _ => inferInstanceAs (Decidable (_ ∧ _ ∧ _))
  | .unary _ _ | .inList _ _ _ | .inQuery _ _ _ | .isNull _ _ | .compareAny _ _ _
  | .compareAll _ _ _ => inferInstanceAs (Decidable (_ ≤ _))
  | .column _ | .literal _ | .parameter | .nested _ | .call _ _ _ _ | .existsIn _ | .subquery _
  | .case _ _ _ => inferInstanceAs (Decidable True)

/-! ## Functions on lists -/

section Lists

variable {α β : Type}

/-- A function on lists that goes through the members is a `map`. -/
theorem eq_map_of_equations {each : α → β} {all : List α → List β} (none : all [] = [])
    (more : ∀ value rest, all (value :: rest) = each value :: all rest) (values : List α) :
    all values = values.map each := by
  induction values with
  | nil => exact none
  | cons value rest ih => rw [more, ih, List.map_cons]

/-- A function on lists that joins what it makes of the members is a `flatMap`. -/
theorem eq_flatMap_of_equations {each : α → List β} {all : List α → List β} (none : all [] = [])
    (more : ∀ value rest, all (value :: rest) = each value ++ all rest) (values : List α) :
    all values = values.flatMap each := by
  induction values with
  | nil => exact none
  | cons value rest ih => rw [more, ih, List.flatMap_cons]

end Lists

/-! ## Parts -/

/-- A node of a statement. -/
inductive Part where
  | expr (e : Expr)
  | item (item : SelectItem)
  | source (source : Source)
  | query (query : Query)

mutual

/-- The expression and all nodes inside it, those of subqueries included. -/
def Expr.parts : Expr → List Part
  | .column name => [.expr (.column name)]
  | .literal value => [.expr (.literal value)]
  | .parameter => [.expr .parameter]
  | .binary op left right => .expr (.binary op left right) :: (left.parts ++ right.parts)
  | .unary op operand => .expr (.unary op operand) :: operand.parts
  | .nested inner => .expr (.nested inner) :: inner.parts
  | .like negated subject pattern =>
      .expr (.like negated subject pattern) :: (subject.parts ++ pattern.parts)
  | .between negated subject low high =>
      .expr (.between negated subject low high) :: (subject.parts ++ (low.parts ++ high.parts))
  | .inList negated subject items =>
      .expr (.inList negated subject items) :: (subject.parts ++ Expr.listParts items)
  | .inQuery negated subject query =>
      .expr (.inQuery negated subject query) :: (subject.parts ++ query.parts)
  | .isNull negated subject => .expr (.isNull negated subject) :: subject.parts
  | .call name args distinct star => .expr (.call name args distinct star) :: Expr.listParts args
  | .existsIn query => .expr (.existsIn query) :: query.parts
  | .subquery query => .expr (.subquery query) :: query.parts
  | .compareAny op left query => .expr (.compareAny op left query) :: (left.parts ++ query.parts)
  | .compareAll op left query => .expr (.compareAll op left query) :: (left.parts ++ query.parts)
  | .case operand branches otherwise =>
      .expr (.case operand branches otherwise) ::
        (Expr.optionParts operand ++ (Branch.listParts branches ++ Expr.optionParts otherwise))

/-- The nodes of an expression that may be absent. -/
def Expr.optionParts : Option Expr → List Part
  | none => []
  | some e => e.parts

/-- The nodes of some expressions. -/
def Expr.listParts : List Expr → List Part
  | [] => []
  | e :: rest => e.parts ++ Expr.listParts rest

/-- The nodes of a branch. -/
def Branch.parts : Branch → List Part
  | ⟨condition, result⟩ => condition.parts ++ result.parts

/-- The nodes of some branches. -/
def Branch.listParts : List Branch → List Part
  | [] => []
  | branch :: rest => branch.parts ++ Branch.listParts rest

/-- The item and all nodes inside it. -/
def SelectItem.parts : SelectItem → List Part
  | .wildcard => [.item .wildcard]
  | .qualifiedWildcard name => [.item (.qualifiedWildcard name)]
  | .expr e name => .item (.expr e name) :: e.parts

/-- The nodes of a select list. -/
def SelectItem.listParts : List SelectItem → List Part
  | [] => []
  | item :: rest => item.parts ++ SelectItem.listParts rest

/-- The source and all nodes inside it. -/
def Source.parts : Source → List Part
  | .table name asName => [.source (.table name asName)]
  | .derived query asName => .source (.derived query asName) :: query.parts

/-- The nodes of the condition of a join. -/
def JoinRule.parts : JoinRule → List Part
  | .cross => []
  | .on _ condition => Expr.optionParts condition

/-- The nodes of a join. -/
def Join.parts : Join → List Part
  | ⟨source, rule⟩ => source.parts ++ rule.parts

/-- The nodes of some joins. -/
def Join.listParts : List Join → List Part
  | [] => []
  | join :: rest => join.parts ++ Join.listParts rest

/-- The nodes of a source and of the joins that follow it. -/
def SourceWithJoins.parts : SourceWithJoins → List Part
  | ⟨source, joins⟩ => source.parts ++ Join.listParts joins

/-- The nodes of some sources with their joins. -/
def SourceWithJoins.listParts : List SourceWithJoins → List Part
  | [] => []
  | source :: rest => source.parts ++ SourceWithJoins.listParts rest

/-- The nodes of a key of an order. -/
def OrderItem.parts : OrderItem → List Part
  | ⟨e, _⟩ => e.parts

/-- The nodes of the keys of an order. -/
def OrderItem.listParts : List OrderItem → List Part
  | [] => []
  | key :: rest => key.parts ++ OrderItem.listParts rest

/-- The query and all nodes inside it. -/
def Query.parts : Query → List Part
  | ⟨distinct, items, sources, condition, groupBy, having, orderBy, limit, offset⟩ =>
      .query ⟨distinct, items, sources, condition, groupBy, having, orderBy, limit, offset⟩ ::
        (SelectItem.listParts items ++ (SourceWithJoins.listParts sources ++
          (Expr.optionParts condition ++ (Expr.listParts groupBy ++
            (Expr.optionParts having ++ OrderItem.listParts orderBy)))))

end

/-! ## Properties of all parts -/

/-- The predicate holds of every node of a list. -/
def Part.Every (holds : Part → Prop) (parts : List Part) : Prop :=
  ∀ part ∈ parts, holds part

namespace Part

variable {holds : Part → Prop}

@[simp]
theorem every_nil : Every holds [] := by
  simp [Every]

@[simp]
theorem every_cons {part : Part} {parts : List Part} :
    Every holds (part :: parts) ↔ holds part ∧ Every holds parts := by
  simp [Every]

@[simp]
theorem every_append {first second : List Part} :
    Every holds (first ++ second) ↔ Every holds first ∧ Every holds second := by
  simp [Every, or_imp, forall_and]

@[simp]
theorem every_flatMap {α : Type} {parts : α → List Part} {values : List α} :
    Every holds (values.flatMap parts) ↔ ∀ value ∈ values, Every holds (parts value) := by
  constructor
  · intro every value member part inside
    exact every part (List.mem_flatMap.mpr ⟨value, member, inside⟩)
  · intro every part inside
    obtain ⟨value, member, isPart⟩ := List.mem_flatMap.mp inside
    exact every value member part isPart

end Part

@[simp]
theorem Expr.every_optionParts {holds : Part → Prop} (e : Option Expr) :
    Part.Every holds (Expr.optionParts e) ↔ ∀ inner ∈ e, Part.Every holds inner.parts := by
  cases e <;> simp [Expr.optionParts]

@[simp]
theorem Expr.listParts_eq (es : List Expr) : Expr.listParts es = es.flatMap Expr.parts :=
  eq_flatMap_of_equations rfl (fun _ _ => rfl) es

@[simp]
theorem Branch.listParts_eq (branches : List Branch) :
    Branch.listParts branches = branches.flatMap Branch.parts :=
  eq_flatMap_of_equations rfl (fun _ _ => rfl) branches

@[simp]
theorem SelectItem.listParts_eq (items : List SelectItem) :
    SelectItem.listParts items = items.flatMap SelectItem.parts :=
  eq_flatMap_of_equations rfl (fun _ _ => rfl) items

@[simp]
theorem Join.listParts_eq (joins : List Join) : Join.listParts joins = joins.flatMap Join.parts :=
  eq_flatMap_of_equations rfl (fun _ _ => rfl) joins

@[simp]
theorem SourceWithJoins.listParts_eq (sources : List SourceWithJoins) :
    SourceWithJoins.listParts sources = sources.flatMap SourceWithJoins.parts :=
  eq_flatMap_of_equations rfl (fun _ _ => rfl) sources

@[simp]
theorem OrderItem.listParts_eq (keys : List OrderItem) :
    OrderItem.listParts keys = keys.flatMap OrderItem.parts :=
  eq_flatMap_of_equations rfl (fun _ _ => rfl) keys

end TripleTables.Sql
