import TripleTables.Graph.Expr

/-!
# Nodes of expressions

`Expr.nodes` lists an expression with everything inside it, so that a property
of all nodes is a property of the members of a list.  It holds of an expression
exactly when it holds of the outermost node and of what stands right inside it
(`Expr.every_iff`), which is how such properties are built up.

Two of them are about aggregates: that there is none, and that none stands in the
argument of another.
-/

namespace TripleTables.Graph.Expr

/-- The expressions right inside the expression, from left to right. -/
def children : Expr → List Expr
  | .variable _ | .constant _ | .bound _ => []
  | .binary _ left right => [left, right]
  | .not operand | .negate operand => [operand]
  | .regex subject _ _ => [subject]
  | .inList subject items _ => subject :: items
  | .call _ args => args
  | .aggregate _ _ arg => arg.toList

mutual

/-- The expression and all expressions inside it, the outer ones first. -/
def nodes : Expr → List Expr
  | .variable v => [.variable v]
  | .constant value => [.constant value]
  | .bound v => [.bound v]
  | .binary op left right => .binary op left right :: (left.nodes ++ right.nodes)
  | .not operand => .not operand :: operand.nodes
  | .negate operand => .negate operand :: operand.nodes
  | .regex subject pattern flags => .regex subject pattern flags :: subject.nodes
  | .inList subject items negated =>
      .inList subject items negated :: (subject.nodes ++ allNodes items)
  | .call function args => .call function args :: allNodes args
  | .aggregate function distinct none => [.aggregate function distinct none]
  | .aggregate function distinct (some arg) =>
      .aggregate function distinct (some arg) :: arg.nodes

/-- The expressions and all expressions inside them. -/
def allNodes : List Expr → List Expr
  | [] => []
  | e :: rest => e.nodes ++ allNodes rest

end

theorem allNodes_eq_flatMap (es : List Expr) : allNodes es = es.flatMap nodes := by
  induction es with
  | nil => rfl
  | cons e rest ih => simp [allNodes, ih]

theorem nodes_eq (e : Expr) : e.nodes = e :: e.children.flatMap nodes := by
  cases e with
  | aggregate function distinct arg => cases arg <;> simp [nodes, children]
  | _ => simp [nodes, children, allNodes_eq_flatMap]

theorem sizeOf_lt_of_mem_children {e child : Expr} (isChild : child ∈ e.children) :
    sizeOf child < sizeOf e := by
  cases e with
  | «variable» v | constant value | bound v => simp [children] at isChild
  | binary op left right =>
      simp only [children, List.mem_cons, List.not_mem_nil, or_false] at isChild
      rcases isChild with rfl | rfl <;> simp +arith
  | not operand | negate operand | regex operand pattern flags =>
      simp only [children, List.mem_singleton] at isChild
      subst isChild
      simp +arith
  | inList subject items negated =>
      rcases List.mem_cons.mp isChild with rfl | isItem
      · simp +arith
      · have smaller : sizeOf child < sizeOf items := List.sizeOf_lt_of_mem isItem
        simp only [inList.sizeOf_spec]
        omega
  | call function args =>
      have smaller : sizeOf child < sizeOf args := List.sizeOf_lt_of_mem isChild
      simp only [call.sizeOf_spec]
      omega
  | aggregate function distinct arg =>
      simp only [children, Option.mem_toList] at isChild
      subst isChild
      simp +arith

/-- What holds of an expression whenever it holds right inside holds of all
expressions. -/
@[elab_as_elim]
theorem induction_on_children {holds : Expr → Prop} (e : Expr)
    (step : ∀ e, (∀ child ∈ e.children, holds child) → holds e) : holds e :=
  step e fun child isChild =>
    have := sizeOf_lt_of_mem_children isChild
    induction_on_children child step
termination_by sizeOf e

/-- All nodes of the expression have a property. -/
def Every (holds : Expr → Prop) (e : Expr) : Prop :=
  ∀ node ∈ e.nodes, holds node

section Every

variable {holds : Expr → Prop} {e : Expr}

theorem every_iff : e.Every holds ↔ holds e ∧ ∀ child ∈ e.children, child.Every holds := by
  simp only [Every, nodes_eq e, List.forall_mem_cons, List.mem_flatMap]
  constructor
  · rintro ⟨here, inside⟩
    exact ⟨here, fun child isChild node isNode => inside node ⟨child, isChild, isNode⟩⟩
  · rintro ⟨here, inside⟩
    exact ⟨here, fun node ⟨child, isChild, isNode⟩ => inside child isChild node isNode⟩

end Every

/-! ## Aggregates -/

/-- The outermost node is an aggregate. -/
def isAggregate : Expr → Bool
  | .aggregate _ _ _ => true
  | _ => false

/-- The argument of the aggregate that the outermost node is. -/
def aggregated? : Expr → Option Expr
  | .aggregate _ _ arg => arg
  | _ => none

/-- No node is an aggregate. -/
def AggregateFree (e : Expr) : Prop :=
  e.Every fun node => node.isAggregate = false

/-- No aggregate stands in the argument of another. -/
def AggregatesUnnested (e : Expr) : Prop :=
  e.Every fun node => ∀ arg ∈ node.aggregated?, arg.AggregateFree

/-- The scan for aggregates finds one exactly when there is one. -/
theorem aggregateFree_iff (e : Expr) : e.AggregateFree ↔ e.containsAggregate = false := by
  induction e using induction_on_children with
  | step e ih =>
      have children : (∀ child ∈ e.children, child.AggregateFree) ↔
          ∀ child ∈ e.children, child.containsAggregate = false :=
        forall₂_congr ih
      refine every_iff.trans ((and_congr_right fun _ => children).trans ?_)
      cases e <;> simp [isAggregate, Expr.children, containsAggregate, anyContainsAggregate_eq_any]

end TripleTables.Graph.Expr
